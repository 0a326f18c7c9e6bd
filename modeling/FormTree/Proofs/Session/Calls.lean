import FormTree.Proofs.Triple
import FormTree.Session

/-!
# Calls on a session

A session is used by calls made one after the other. No call, be it one that fails at any depth,
changes how the session reads: its options and its host stay, the scopes are clear and the nesting
budget is whole.
-/

namespace FormTree

/-- The calls on a session. -/
inductive Request where
  | read
  | readOpt
  | readToEnd
  | finish
  deriving DecidableEq, Repr

namespace Session

/-- Makes a call. The answer is a form or nothing. -/
def call : Request → Call (Option Form)
  | .read => some <$> read
  | .readOpt => readOpt
  | .readToEnd => some <$> readToEnd
  | .finish => (fun _ => none) <$> finish

/-- The session after some calls, whether they succeeded or failed. -/
def after (p : Session) : List Request → Session
  | [] => p
  | r :: rs => (stateOf (call r p)).after rs

/-- Calls are made one after the other. -/
theorem after_append (p : Session) (rs ss : List Request) :
    p.after (rs ++ ss) = (p.after rs).after ss := by
  induction rs generalizing p with
  | nil => rfl
  | cons r rs ih => exact ih _

/-- The answer of a run. -/
def answer {α : Type} : EStateM.Result ReadError Session α → Except ReadError α
  | .ok a _ => .ok a
  | .error e _ => .error e

/-- The answers to some calls, made one after the other. -/
def answers (p : Session) : List Request → List (Except ReadError (Option Form))
  | [] => []
  | r :: rs => answer (call r p) :: (stateOf (call r p)).answers rs

/-! ### What calls leave -/

/-- Whether `q` reads in the same way as `p`, in the same scopes and with the same budget. -/
structure SameFrame (p q : Session) : Prop where
  options_eq : q.options = p.options
  host_eq : q.host = p.host
  state : p.state.SameFrame q.state

theorem SameFrame.refl (p : Session) : p.SameFrame p := ⟨rfl, rfl, .refl _⟩

/-- What two calls leave alone both of them leave alone. -/
theorem SameFrame.trans {p q r : Session} (h : p.SameFrame q) (h' : q.SameFrame r) :
    p.SameFrame r :=
  ⟨h'.options_eq.trans h.options_eq, h'.host_eq.trans h.host_eq, h.state.trans h'.state⟩

/-- Reading leaves everything but the cursor and the numbers of symbols as it was. -/
theorem sameFrame_readOpt (p : Session) : p.SameFrame (stateOf (readOpt p)) := by
  unfold readOpt
  split
  · exact .refl p
  · have hs := settles_of_advances (p.reader.advances p.setting none p.state)
    split <;> rename_i hr <;> rw [hr] at hs <;> exact ⟨rfl, rfl, hs.2⟩

/-- What `read` answers, by the answer of `readOpt`. -/
theorem read_eq (p : Session) :
    read p =
      match readOpt p with
      | .ok (some f) q => .ok f q
      | .ok none q =>
        match q.options.atEnd with
        | some f => .ok f q
        | none => fail .endOfInput q
      | .error e q => .error e q := by
  rw [read, bind_apply]
  rcases readOpt p with ⟨- | f, q⟩ | ⟨e, q⟩
  · dsimp only [bind, EStateM.bind, get, getThe, MonadStateOf.get, EStateM.get]
    rcases q.options.atEnd with - | f <;> rfl
  · rfl
  · rfl

/-- The loop over the forms of a session as a program. -/
theorem readAll_eq : (readAll : Call (List Form)) = (do
    match ← readOpt with
    | some f => (f :: ·) <$> (readAll : Call (List Form))
    | none => return [] : Call (List Form)) := by
  funext p
  rw [readAll.eq_def, bind_apply]
  rcases readOpt p with ⟨- | f, q⟩ | ⟨e, q⟩
  · rfl
  · refine Eq.trans ?_ (map_apply _ (readAll : Call _) q).symm
    dsimp only
    cases readAll q <;> rfl
  · rfl

/-- What a session reads depends on what it reads first. -/
theorem readAll_congr {p q : Session} (h : readOpt p = readOpt q) : readAll p = readAll q := by
  rw [readAll.eq_def p, readAll.eq_def q, h]

theorem sameFrame_read (p : Session) : p.SameFrame (stateOf (read p)) := by
  have h := sameFrame_readOpt p
  rw [read_eq]
  rcases hr : readOpt p with ⟨- | f, q⟩ | ⟨e, q⟩ <;> rw [hr] at h
  · cases hend : q.options.atEnd <;> simp only [hend] <;> exact h
  · exact h
  · exact h

theorem sameFrame_readAll (p : Session) : p.SameFrame (stateOf (readAll p)) := by
  have h := sameFrame_readOpt p
  fun_induction readAll p with
  | case1 p f p₁ hr fs p₂ hrest ih =>
    rw [hr] at h
    rw [hrest] at ih
    exact h.trans (ih (sameFrame_readOpt p₁))
  | case2 p f p₁ hr e p₂ hrest ih =>
    rw [hr] at h
    rw [hrest] at ih
    exact h.trans (ih (sameFrame_readOpt p₁))
  | case3 p p₁ hr => rwa [hr] at h
  | case4 p e p₁ hr => rwa [hr] at h

theorem sameFrame_finish (p : Session) : p.SameFrame (stateOf (finish p)) := by
  unfold finish
  split <;> exact ⟨rfl, rfl, .refl _⟩

/-- No call changes how the session reads, its scopes or its budget. -/
theorem sameFrame_call (r : Request) (p : Session) : p.SameFrame (stateOf (call r p)) := by
  cases r with
  | read => rw [call, stateOf_map]; exact sameFrame_read p
  | readOpt => exact sameFrame_readOpt p
  | readToEnd =>
    have hall : stateOf (readToEnd p) = stateOf (readAll p) := stateOf_map _ _ _
    rw [call, stateOf_map, hall]
    exact sameFrame_readAll p
  | finish => rw [call, stateOf_map]; exact sameFrame_finish p

/-- So do any calls, by induction on the list of them. -/
theorem sameFrame_after (p : Session) (rs : List Request) : p.SameFrame (p.after rs) := by
  induction rs generalizing p with
  | nil => exact .refl p
  | cons r rs ih => exact (sameFrame_call r p).trans (ih _)

end Session

end FormTree
