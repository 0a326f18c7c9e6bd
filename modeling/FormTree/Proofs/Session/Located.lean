import FormTree.Proofs.Reader.Moves
import FormTree.Proofs.Session.Restart

/-!
# Where errors are located

The errors of the calls that read carry the position at which the session stands when they leave it,
whatever they come from: the source, a scanner, a construct or the host. The one call that only
checks for the end of input passes a fault of its source on without a position.
-/

namespace FormTree

/-- Looking for the first character of a form fails with a fault of the source only. -/
theorem Cursor.isSome_fault?_of_nextForm {k l : Cursor} {e : Cause} (h : nextForm k = .error e l) :
    e.fault?.isSome = true := by
  fun_induction nextForm k with
  | case1 k e' k₁ hk =>
    cases h
    rw [next_eq] at hk
    split at hk <;> cases hk
    rfl
  | case2 | case4 => cases h
  | case3 k c k₁ hk _ ih => exact ih h

namespace Session

variable {p q : Session} {e : ReadError}

/-! ### What calls do to the cursor -/

/-- Whether a call on a session has only moved its cursor. -/
abbrev LedFrom {α : Type} (p : Session) (r : EStateM.Result ReadError Session α) : Prop :=
  Led ReadError.cause (·.state.cursor) p.state.cursor r

/-- Reading moves the cursor of a session up to where it fails. -/
theorem led_readOpt (p : Session) : p.LedFrom (readOpt p) := by
  unfold readOpt
  split
  · exact .refused rfl .refl
  · have hled : Led id State.cursor p.state.cursor (p.reader.run p.setting none p.state) :=
      FormReader.moves_nesting _ none p.state
    split <;> rename_i hr <;> rw [hr] at hled
    · exact .ok hled.reaches
    · exact .ok hled.reaches
    · cases hled with
      | refused he h => exact .refused he h
      | failed he h hnext => exact .failed he h hnext

theorem led_read (p : Session) : p.LedFrom (read p) := by
  have h := led_readOpt p
  rw [read_eq]
  rcases hr : readOpt p with ⟨- | f, q⟩ | ⟨e, q⟩ <;> rw [hr] at h
  · dsimp only
    cases q.options.atEnd
    · exact .refused rfl h.reaches
    · exact .ok h.reaches
  · exact .ok h.reaches
  · exact h.error

/-- So does reading everything ahead, form by form. -/
theorem led_readAll (p : Session) : p.LedFrom (readAll p) := by
  have h := led_readOpt p
  fun_induction readAll p with
  | case1 p f p₁ hr fs p₂ hrest ih =>
    rw [hr] at h
    have ih := ih (led_readOpt p₁)
    rw [hrest] at ih
    exact .ok (h.reaches.trans ih.reaches)
  | case2 p f p₁ hr e p₂ hrest ih =>
    rw [hr] at h
    have ih := ih (led_readOpt p₁)
    rw [hrest] at ih
    exact .after h.reaches ih.error
  | case3 p p₁ hr => rw [hr] at h; exact .ok h.reaches
  | case4 p e p₁ hr => rw [hr] at h; exact h.error

theorem led_finish (p : Session) : p.LedFrom (finish p) := by
  have h := Scan.moves_nextForm p.state.cursor
  unfold finish
  split <;> rename_i hk <;> rw [hk] at h
  · exact .ok h.reaches
  · exact .refused rfl h.reaches
  · cases h with
    | refused he h => exact .refused he h
    | failed he h hnext => exact .failed he h hnext

/-- Every call only moves the cursor of its session. -/
theorem led_call (r : Request) (p : Session) : p.LedFrom (call r p) := by
  cases r with
  | read => exact (led_read p).map _
  | readOpt => exact led_readOpt p
  | readToEnd =>
    have hall : p.LedFrom ((readAll : Call (List Form)) p) := led_readAll p
    exact (hall.map Form.file).map _
  | finish => exact (led_finish p).map _

/-- Whatever is called, the cursor of a session has only moved. -/
theorem reaches_after (p : Session) (rs : List Request) :
    p.state.cursor.Reaches (p.after rs).state.cursor := by
  induction rs generalizing p with
  | nil => exact .refl
  | cons r rs ih => exact (led_call r p).reaches_stateOf.trans (ih _)

/-! ### What errors carry -/

/-- An error of a read is located where the session stands after it. -/
theorem position_of_readOpt (h : readOpt p = .error e q) : e.position = q.position := by
  unfold readOpt at h
  split at h
  · cases h
    rfl
  · split at h <;> cases h
    rfl

theorem position_of_read (h : read p = .error e q) : e.position = q.position := by
  rw [read_eq] at h
  rcases hr : readOpt p with ⟨- | f, q₁⟩ | ⟨e₁, q₁⟩ <;> rw [hr] at h
  · cases hend : q₁.options.atEnd <;> simp only [hend] at h <;> cases h
    rfl
  · cases h
  · cases h
    exact position_of_readOpt hr

theorem position_of_readAll (h : readAll p = .error e q) : e.position = q.position := by
  fun_induction readAll p with
  | case1 | case3 => cases h
  | case2 p f p₁ hr e' p₂ hrest ih =>
    cases h
    exact ih hrest
  | case4 p e' p₁ hr =>
    cases h
    exact position_of_readOpt hr

/-- The check for the end of input locates what it finds, but not a fault of the source. -/
theorem position_of_finish (h : finish p = .error e q) :
    e.position = if e.cause.fault?.isSome then none else q.position := by
  unfold finish at h
  split at h
  · cases h
  · cases h
    rfl
  · rename_i cause k hk
    cases h
    rw [if_pos (Cursor.isSome_fault?_of_nextForm hk)]

/-- **Errors are located where the session stands.** Whatever was called before, and whatever the
source and the host do, an error carries the position of the cursor that the failed call leaves, if
the source shows positions, and none if it hides them. The one exception is a fault of the source
that the check for the end of input comes upon: it carries no position. A fault comes through at
once, so that the cursor is left where the source failed. -/
theorem position_of_call (k : Cursor) (options : Options) (host : Host) (rs : List Request)
    (r : Request) (h : call r ((ofCursor k options host).after rs) = .error e q) :
    (e.position =
      if r = .finish ∧ e.cause.fault?.isSome then none
      else if k.tracked then some q.state.cursor.place else none) ∧
    ∀ fault, e.cause = .source fault →
      ∃ l, ((ofCursor k options host).after rs).state.cursor.Reaches l ∧
        Cursor.next l = .error (.source fault) q.state.cursor := by
  have hled := led_call r ((ofCursor k options host).after rs)
  rw [h] at hled
  refine ⟨?_, fun _ => hled.exists_of_source⟩
  have htracked : q.state.cursor.tracked = k.tracked :=
    Cursor.Reaches.tracked_eq ((reaches_after _ rs).trans hled.reaches_stateOf)
  have hposition : q.position = if k.tracked then some q.state.cursor.place else none := by
    rw [position, Cursor.position, htracked]
  rw [← hposition]
  -- Only the check for the end hands a fault on as it is; the others all locate it.
  have hreads (hr : r ≠ .finish) (hlocated : e.position = q.position) :
      e.position = if r = .finish ∧ e.cause.fault?.isSome then none else q.position := by
    rw [if_neg fun hfinish => hr hfinish.1]
    exact hlocated
  cases r with
  | read => exact hreads nofun (position_of_read (map_eq_error.1 h))
  | readOpt => exact hreads nofun (position_of_readOpt h)
  | readToEnd => exact hreads nofun (position_of_readAll (map_eq_error.1 (map_eq_error.1 h)))
  | finish =>
    rw [position_of_finish (map_eq_error.1 h)]
    exact if_congr (and_iff_right rfl).symm rfl rfl

/-- Whether a run fails with this cause. -/
def failsWith {α : Type} (cause : Cause) : EStateM.Result ReadError Session α → Bool
  | .ok _ _ => false
  | .error e _ => e.cause = cause

/-- A failure with a cause is found by evaluation. -/
theorem exists_of_failsWith {α : Type} {cause : Cause} {r : EStateM.Result ReadError Session α}
    (h : failsWith cause r = true) : ∃ e q, r = .error e q ∧ e.cause = cause := by
  rcases r with ⟨a, q⟩ | ⟨e, q⟩
  · cases h
  · exact ⟨e, q, rfl, of_decide_eq_true h⟩

/-- A byte that begins no character is a fault that both calls come upon. Reading locates it, and
the check for the end of input does not. -/
theorem position_of_call_invalidUtf8 :
    let k : Cursor := .ofStream (Utf8.stream [0xFF] none)
    let p := ofCursor k .standard (.standard .lenient)
    (∃ e q, call .readOpt p = .error e q ∧ e.cause = .source .invalidUtf8 ∧
        e.position = some q.state.cursor.place ∧
        ∃ l, k.Reaches l ∧ Cursor.next l = .error (.source .invalidUtf8) q.state.cursor) ∧
      ∃ e q, call .finish p = .error e q ∧ e.cause = .source .invalidUtf8 ∧ e.position = none := by
  intro k p
  constructor
  · obtain ⟨e, q, h, he⟩ := exists_of_failsWith
      (by decide +kernel : failsWith (.source .invalidUtf8) (call .readOpt p) = true)
    obtain ⟨hposition, hfault⟩ := position_of_call k .standard (.standard .lenient) [] .readOpt h
    exact ⟨e, q, h, he, hposition, hfault _ he⟩
  · obtain ⟨e, q, h, he⟩ := exists_of_failsWith
      (by decide +kernel : failsWith (.source .invalidUtf8) (call .finish p) = true)
    obtain ⟨hposition, -⟩ := position_of_call k .standard (.standard .lenient) [] .finish h
    refine ⟨e, q, h, he, ?_⟩
    rw [hposition, he]
    rfl

end Session

end FormTree
