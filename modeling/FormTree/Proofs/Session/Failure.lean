import FormTree.Proofs.Session.Compared
import FormTree.Proofs.Session.Located
import FormTree.Proofs.Source.Failure

/-!
# Failures of the transport are reported

A source of bytes that fails once is read like one that does not fail, up to the call that meets the
failure. That call fails with it, whatever it was reading: an end of input, a token that would have
been complete or an error of the text are never reported in its place.
-/

namespace FormTree

/-! ### Streams that fail -/

/-- Bytes that are all delivered make up no failure. -/
theorem Cursor.countP_items (bytes : List UInt8) :
    (Utf8.items (bytes.map .ok)).countP Item.isFailure = 0 := by
  refine List.countP_eq_zero.2 fun item hitem => ?_
  match item with
  | .ok c => exact Bool.false_ne_true
  | .error .invalidUtf8 => exact Bool.false_ne_true
  | .error (.io e) => exact absurd hitem (Utf8.notMem_items e bytes)

/-- A failing stream has the items of the stream without the failure up to that, and no failure
after it. -/
theorem Cursor.failsBeside_ofStream {bytes : List UInt8} {n : Nat} (hn : n ≤ bytes.length)
    (e : IoFailure) :
    FailsBeside e (ofStream (Utf8.stream bytes (some (n, e)))) (ofStream (Utf8.stream bytes none)) ∧
      (ofStream (Utf8.stream bytes (some (n, e)))).failures = 1 := by
  obtain ⟨before, after, hitems, hsound⟩ := Utf8.exists_items_append_error e
    ((bytes.drop n).map .ok) ((bytes.take n).map .ok)
  rw [← List.map_append, List.take_append_drop] at hsound
  have hstream : Utf8.stream bytes (some (n, e)) =
      (bytes.take n).map .ok ++ .error e :: (bytes.drop n).map .ok := by
    rw [Utf8.stream, if_pos hn, List.map_take, List.map_drop]
  have hfailing : (ofStream (Utf8.stream bytes (some (n, e)))).source =
      before ++ .error (.io e) :: Utf8.items ((bytes.drop n).map .ok) := by
    rw [hstream]
    exact hitems
  refine ⟨⟨before, _, after, hfailing, ?_⟩, ?_⟩
  · exact congrArg ofItems hsound
  · have hbefore := countP_items bytes
    rw [hsound, List.countP_append] at hbefore
    rw [failures, hfailing, List.countP_append, List.countP_cons_of_pos rfl, countP_items]
    omega

namespace Session

variable {e : IoFailure} {p q : Session}

/-- Whether the source of a session has yet to fail. -/
def FailureAhead (e : IoFailure) (p : Session) : Prop := .error (.io e) ∈ p.state.cursor.source

/-- What differs between a session on a source that fails and one on a source that does not. -/
abbrev failing (e : IoFailure) (setting : Setting) : Read.Comparison setting setting :=
  (Read.Invariant.refl _ setting).toComparison (C := .failing e) Eq.refl
    fun _ _ => Cursor.FailsBeside.position_eq

/-- A failure that is ahead after some calls was ahead before them. -/
theorem FailureAhead.of_after {rs : List Request} (h : (p.after rs).FailureAhead e) :
    p.FailureAhead e :=
  (Cursor.Reaches.source_suffix (reaches_after p rs)).subset h

/-- Sessions that are compared so have the failure in the first source. -/
theorem Compared.failureAhead {setting : Setting} (h : Compared (failing e setting) p q) :
    p.FailureAhead e :=
  h.state.cursor.mem_source

/-- A call that meets the failure leaves none ahead. -/
theorem not_failureAhead_of_call {r : Request} {f : ReadError}
    (hp : p.state.cursor.failures ≤ 1) {rs : List Request}
    (h : call r (p.after rs) = .error f q) (hf : f.cause = .source (.io e)) :
    ¬ q.FailureAhead e := by
  have hled := led_call r (p.after rs)
  rw [h] at hled
  obtain ⟨l, hl, hnext⟩ := hled.exists_of_source hf
  exact Cursor.notMem_source_of_reaches hp ((reaches_after p rs).trans hl) hnext

/-- As long as the failure is ahead, calls are answered as without it. -/
theorem sideBySide_of_failureAhead {setting : Setting} (h : Compared (failing e setting) p q)
    (hp : p.state.cursor.failures ≤ 1) {rs : List Request} (hahead : (p.after rs).FailureAhead e) :
    SideBySide (failing e setting) p q rs := by
  rcases sideBySide_of_compared rfl h rs with hrs | ⟨rs₁, r, rs₂, f, p', rfl, -, hcall, hf⟩
  · exact hrs
  · rw [after_append, after, hcall] at hahead
    exact absurd hahead.of_after (not_failureAhead_of_call hp hcall hf)

/-- **A failure of the transport is never masked.** A session on bytes of which one fails once to
be delivered has that failure ahead of it until a call meets it. That call fails with just this
failure, and up to there all calls are answered as by a session on the same bytes without it. -/
theorem failure_of_call (bytes : List UInt8) (n : Nat) (e : IoFailure) (options : Options)
    (host : Host) :
    let p := ofCursor (.ofStream (Utf8.stream bytes (some (n, e)))) options host
    let q := ofCursor (.ofStream (Utf8.stream bytes none)) options host
    (p.FailureAhead e ↔ n ≤ bytes.length) ∧
      (∀ rs, (p.after rs).FailureAhead e → p.answers rs = q.answers rs) ∧
        ∀ rs r, (p.after rs).FailureAhead e → ¬ (p.after (rs ++ [r])).FailureAhead e →
          ∃ position, answer (call r (p.after rs)) = .error ⟨.source (.io e), position⟩ := by
  intro p q
  -- a stream that ends before the failure comes has no failure in it
  have hreached (h : p.FailureAhead e) : n ≤ bytes.length := by
    by_contra hn
    have hstream : Utf8.stream bytes (some (n, e)) = bytes.map .ok := if_neg hn
    unfold FailureAhead at h
    change _ ∈ Utf8.items (Utf8.stream bytes (some (n, e))) at h
    rw [hstream] at h
    exact Utf8.notMem_items e bytes h
  have hside (rs : List Request) (h : (p.after rs).FailureAhead e) :
      SideBySide (failing e ⟨options, host⟩) p q rs := by
    obtain ⟨hbeside, hfailures⟩ := Cursor.failsBeside_ofStream (hreached h.of_after) e
    have hcompared : Compared (failing e ⟨options, host⟩) p q :=
      ⟨rfl, rfl, ⟨hbeside, ⟨rfl, trivial⟩, rfl, rfl⟩⟩
    exact sideBySide_of_failureAhead hcompared (Nat.le_of_eq hfailures) h
  refine ⟨⟨hreached, fun hn => (Cursor.failsBeside_ofStream hn e).1.mem_source⟩,
    fun rs h => (hside rs h).answers_eq fun _ _ h => h, fun rs r h hgone => ?_⟩
  -- either the failure is still ahead of both sessions, or the call has met it
  rcases answer_or_excused (call_agrees rfl r _ _ (hside rs h).after) with
    ⟨-, hstate⟩ | ⟨f, p', hcall, hf⟩
  · rw [after_append] at hgone
    exact absurd hstate.failureAhead hgone
  · obtain ⟨cause, position⟩ := f
    obtain rfl : cause = .source (.io e) := hf
    exact ⟨position, by rw [hcall]; rfl⟩

/-- The failure is met while looking for the end of a token. -/
theorem failure_of_call_token :
    let e : IoFailure := ⟨"Other", "broken pipe"⟩
    let p := ofCursor (.ofStream (Utf8.stream "ab".toUTF8.toList (some (1, e))))
        .standard (.standard .lenient)
    p.FailureAhead e ∧ ¬ (p.after [.readOpt]).FailureAhead e ∧
      ∃ position, answer (call .readOpt p) = .error ⟨.source (.io e), position⟩ := by
  intro e p
  obtain ⟨hahead, -, hcall⟩ :=
    failure_of_call "ab".toUTF8.toList 1 e .standard (.standard .lenient)
  have hfirst : p.FailureAhead e := hahead.2 (by decide +kernel)
  have hgone : ¬ (p.after [.readOpt]).FailureAhead e := by
    unfold FailureAhead
    decide +kernel
  exact ⟨hfirst, hgone, hcall [] .readOpt hfirst hgone⟩

end Session

end FormTree
