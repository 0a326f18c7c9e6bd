import FormTree.Proofs.Session.Calls
import FormTree.Proofs.Source.Pending

/-!
# Sessions make progress

A level that waits for no delimiter takes at least one character or fault from its source, unless it
finds the end of input. So does each attempt of a session to read a form, one that fails included,
and as what is left is finite, attempts made one after the other come to its end.
-/

namespace FormTree

/-- Whether a run left less to read, or found that nothing is left. -/
inductive State.Progresses (s : State) : EStateM.Result Cause State Outcome → Prop
  | form {f : Form} {t : State} (h : t.size < s.size) : Progresses s (.ok (.form f) t)
  | endOfInput {t : State} (h : t.cursor.pending = []) : Progresses s (.ok .endOfInput t)
  | error {e : Cause} {t : State} (h : t.size < s.size) : Progresses s (.error e t)

namespace Level

open Read

variable {below : FormReader} {setting : Setting}

/-- What looking for a form takes is not handed back by what it begins. -/
theorem progresses_read (s : State) : s.Progresses (read below setting none s) := by
  have hstart (c : Char) := settles_start below setting c
  fun_induction read below setting none s with
  | case1 s e s₁ hs =>
    unfold scan at hs
    split at hs <;> cases hs
    exact .error (Cursor.size_lt_of_nextForm_error ‹_›)
  | case2 s s₁ hs =>
    obtain ⟨k, hk, rfl⟩ := scan_eq_ok.1 hs
    exact .endOfInput (Cursor.pending_of_nextForm_none hk)
  | case3 s c s₁ hs hc => cases hc
  | case4 s c s₁ hs _ e s₂ hf =>
    exact .error (Nat.lt_of_le_of_lt ((hstart c).size_le_of_error hf) (size_lt_of_scan_nextForm hs))
  | case5 s c s₁ hs _ f s₂ hf =>
    exact .form (Nat.lt_of_le_of_lt ((hstart c).size_le_of_ok hf) (size_lt_of_scan_nextForm hs))
  | case6 s c s₁ hs _ s₂ hf ih =>
    have hlt := Nat.lt_of_le_of_lt ((hstart c).size_le_of_ok hf) (size_lt_of_scan_nextForm hs)
    generalize read below setting none s₂ = r at ih
    cases ih with
    | form h => exact .form (Nat.lt_trans h hlt)
    | endOfInput h => exact .endOfInput h
    | error h => exact .error (Nat.lt_trans h hlt)

end Level

namespace Session

variable {p q : Session}

/-- Whether an attempt to read a form left less to read, found that nothing is left, or was not
allowed. -/
inductive Progresses (p : Session) : EStateM.Result ReadError Session (Option Form) → Prop
  | form {f : Form} {q : Session} (h : q.size < p.size) : Progresses p (.ok (some f) q)
  | endOfInput {q : Session} (h : q.size = 0) : Progresses p (.ok none q)
  | error {e : ReadError} {q : Session} (h : q.size < p.size) : Progresses p (.error e q)
  | disallowed {e : ReadError} (hpolicy : p.host.evaluation = .unknown)
    (he : e.cause = .readingDisallowed) : Progresses p (.error e p)

/-- **Every call makes progress**, or it is at the end, or the policy is unknown. -/
theorem progresses_readOpt (p : Session) : p.Progresses (readOpt p) := by
  unfold readOpt
  split
  · rename_i hpolicy
    exact .disallowed hpolicy rfl
  · have h : p.state.Progresses (p.reader.run p.setting none p.state) :=
      Level.progresses_read p.state
    generalize p.reader.run p.setting none p.state = r at h
    cases h with
    | form h => exact .form h
    | endOfInput h => exact .endOfInput (congrArg List.length h)
    | error h => exact .error h

/-! ### Runs -/

/-- Attempts that are not stopped by the policy come to the end of what is left. -/
theorem exists_readOpt_none (hpolicy : p.host.evaluation ≠ .unknown) :
    ∃ n ≤ p.size, ∃ q, readOpt (p.after (List.replicate n .readOpt)) = .ok none q := by
  induction hsize : p.size using Nat.strongRecOn generalizing p with
  | ind size ih =>
    subst hsize
    -- where an attempt left less to read, those that follow come to the end of that
    have hstep (hlt : (stateOf (readOpt p)).size < p.size) : ∃ n ≤ p.size, ∃ q,
        readOpt (p.after (List.replicate n .readOpt)) = .ok none q := by
      have hhost := (sameFrame_readOpt p).host_eq
      obtain ⟨n, hn, q, hq⟩ := ih _ hlt (hhost ▸ hpolicy) rfl
      exact ⟨n + 1, Nat.lt_of_le_of_lt hn hlt, q, hq⟩
    have h := progresses_readOpt p
    cases hr : readOpt p with
    | ok f q =>
      rw [hr] at h hstep
      cases h with
      | form h => exact hstep h
      | endOfInput h => exact ⟨0, Nat.zero_le _, q, hr⟩
    | error e q =>
      rw [hr] at h hstep
      cases h with
      | error h => exact hstep h
      | disallowed h => exact absurd h hpolicy

/-- A call that makes progress, or none, leaves no more than was there. -/
theorem Progresses.size_le {r : EStateM.Result ReadError Session (Option Form)}
    (h : p.Progresses r) : (stateOf r).size ≤ p.size := by
  cases h with
  | form h => exact Nat.le_of_lt h
  | endOfInput h => exact Nat.le_trans (Nat.le_of_eq h) (Nat.zero_le _)
  | error h => exact Nat.le_of_lt h
  | disallowed => exact Nat.le_refl _

theorem size_readAll_le (p : Session) : (stateOf (readAll p)).size ≤ p.size := by
  have h := (progresses_readOpt p).size_le
  fun_induction readAll p with
  | case1 p f p₁ hr fs p₂ hrest ih =>
    rw [hr] at h
    rw [hrest] at ih
    exact Nat.le_trans (ih (progresses_readOpt p₁).size_le) h
  | case2 p f p₁ hr e p₂ hrest ih =>
    rw [hr] at h
    rw [hrest] at ih
    exact Nat.le_trans (ih (progresses_readOpt p₁).size_le) h
  | case3 p p₁ hr => rwa [hr] at h
  | case4 p e p₁ hr => rwa [hr] at h

/-- No call leaves more to read. -/
theorem size_call_le (r : Request) (p : Session) : (stateOf (call r p)).size ≤ p.size := by
  have h := (progresses_readOpt p).size_le
  cases r with
  | read =>
    rw [call, stateOf_map, read_eq]
    rcases hr : readOpt p with ⟨- | f, q⟩ | ⟨e, q⟩ <;> rw [hr] at h
    · cases hend : q.options.atEnd <;> simp only [hend] <;> exact h
    · exact h
    · exact h
  | readOpt => exact h
  | readToEnd =>
    have hall : stateOf (readToEnd p) = stateOf (readAll p) := stateOf_map _ _ _
    rw [call, stateOf_map, hall]
    exact size_readAll_le p
  | finish =>
    have hblank := Cursor.shrinks_nextForm.le p.state.cursor
    rw [call, stateOf_map]
    unfold finish
    split <;> rename_i hk <;> rw [hk] at hblank <;> exact hblank

theorem size_after_le (p : Session) (rs : List Request) : (p.after rs).size ≤ p.size := by
  induction rs generalizing p with
  | nil => exact Nat.le_refl _
  | cons r rs ih => exact Nat.le_trans (ih _) (size_call_le r p)

/-- **Reading makes progress.** Whatever calls came before, an attempt to read a form leaves less to
read, also when it fails, unless it finds that nothing is left or is not allowed. So where the
policy is known the end is found at last, after no more attempts than there are characters left. -/
theorem progresses_ofText (text : String) (options : Options) (host : Host) (rs : List Request) :
    let p := (ofCursor (.ofText text) options host).after rs
    p.Progresses (readOpt p) ∧ p.size ≤ text.length ∧
      (host.evaluation ≠ .unknown →
        ∃ n ≤ p.size, ∃ q, readOpt (p.after (List.replicate n .readOpt)) = .ok none q) := by
  intro p
  have hsize : (ofCursor (.ofText text) options host).size = text.length :=
    (List.length_map _).trans String.length_toList
  refine ⟨progresses_readOpt p, hsize ▸ size_after_le _ rs, fun hpolicy => ?_⟩
  have hhost : p.host = host := (sameFrame_after _ rs).host_eq
  exact exists_readOpt_none (hhost ▸ hpolicy)

/-- A text with an error in it is read to its end. -/
theorem progresses_ofText_unmatched :
    (Host.standard .lenient).evaluation ≠ .unknown ∧ ∃ n ≤ 5, ∃ q, readOpt
      ((ofText .lenient "a ) b" .standard).after (List.replicate n .readOpt)) = .ok none q := by
  have hpolicy : (Host.standard .lenient).evaluation ≠ .unknown := by decide
  obtain ⟨-, hsize, hend⟩ := progresses_ofText "a ) b" .standard (.standard .lenient) []
  obtain ⟨n, hn, q, hq⟩ := hend hpolicy
  exact ⟨hpolicy, n, Nat.le_trans hn (Nat.le_trans hsize (by decide)), q, hq⟩

end Session

end FormTree
