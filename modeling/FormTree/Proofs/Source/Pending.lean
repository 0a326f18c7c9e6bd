import FormTree.Source.Progress

/-!
# Delivering what is pending

What scanning gives depends on what is pending and on nothing else: whether a character was handed
back or comes from the source makes no difference, and so does the position. Here `next` and what is
built from it are described by what is pending before and after.
-/

namespace FormTree.Cursor

/-- The cursor after delivering `c`, with `rest` left to deliver. -/
def past (k : Cursor) (c : Char) (rest : List Item) : Cursor :=
  { k with source := rest, held := none }.advance c

/-- What `next` does, by what is pending. -/
theorem next_eq (k : Cursor) :
    next k =
      match k.pending with
      | [] => .ok none k
      | .ok c :: rest => .ok (some c) (k.past c rest)
      | .error fault :: rest => .error (.source fault) { k with source := rest, held := none } := by
  obtain ⟨source, held, place, lastColumn, tracked, passed, orderly⟩ := k
  cases held with
  | some c => rfl
  | none =>
    match source with
    | [] => rfl
    | .ok _ :: _ => rfl
    | .error _ :: _ => rfl

/-- A character delivered is the one that was pending first. -/
theorem exists_past_of_next {k k' : Cursor} {c : Char} (h : next k = .ok (some c) k') :
    ∃ rest, k.pending = .ok c :: rest ∧ k' = k.past c rest := by
  rw [next_eq] at h
  split at h <;> cases h
  exact ⟨_, ‹_›, rfl⟩

/-- The end is found where nothing is pending, and stays there. -/
theorem pending_of_next_none {k k' : Cursor} (h : next k = .ok none k') : k'.pending = [] := by
  rw [next_eq] at h
  split at h <;> cases h
  assumption

/-- A fault that is met is passed over. -/
theorem size_lt_of_next_error {k k' : Cursor} {e : Cause} (h : next k = .error e k') :
    k'.size < k.size := by
  rw [next_eq] at h
  split at h <;> cases h
  rename_i hk
  rw [size, size, hk]
  exact Nat.lt_succ_self _

/-- Nothing is left where no form is ahead. -/
theorem pending_of_nextForm_none {k k' : Cursor} (h : nextForm k = .ok none k') :
    k'.pending = [] := by
  fun_induction nextForm k with
  | case1 | case4 => cases h
  | case2 k k₁ hk =>
    cases h
    exact pending_of_next_none hk
  | case3 k c k₁ hk _ ih => exact ih h

/-- A fault that is met is used up. -/
theorem size_lt_of_nextForm_error {k k' : Cursor} {e : Cause} (h : nextForm k = .error e k') :
    k'.size < k.size := by
  fun_induction nextForm k with
  | case1 k e k₁ hk =>
    cases h
    exact size_lt_of_next_error hk
  | case2 | case4 => cases h
  | case3 k c k₁ hk _ ih => exact Nat.lt_trans (ih h) (size_lt_of_next hk)

/-- What a cursor that holds no character has left, after one was handed back to it. -/
theorem pending_handBack {k : Cursor} (h : k.held = none) (c : Char) :
    (k.handBack c).pending = .ok c :: k.pending := by
  simp [handBack, retreat, pending, h]

end FormTree.Cursor
