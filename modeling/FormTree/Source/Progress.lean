import FormTree.Source.Cursor

/-!
# Progress

Reading never lengthens what is pending, and delivering a character shortens it. A function
**shrinks** a measure of its state if no run of it, failed ones included, leaves the state larger;
whatever is composed of such functions is one. The loops of the reader end because of this. What
hands a character back lengthens what is pending by that character, which is made up for by having
it delivered before.
-/

namespace FormTree

variable {ε σ α β : Type}

/-- The state that a run leaves. -/
def stateOf : EStateM.Result ε σ α → σ
  | .ok _ s => s
  | .error _ s => s

/-- A composed run is a run of its first part and, if that succeeds, one of its second part. -/
theorem bind_apply (m : EStateM ε σ α) (f : α → EStateM ε σ β) (s : σ) :
    (m >>= f) s =
      match m s with
      | .ok a t => f a t
      | .error e t => .error e t := by
  change EStateM.bind m f s = _
  rw [EStateM.bind]
  cases m s <;> rfl

/-- What is done with the value of a run leaves errors and states alone. -/
theorem map_apply (f : α → β) (m : EStateM ε σ α) (s : σ) :
    (f <$> m) s =
      match m s with
      | .ok a t => .ok (f a) t
      | .error e t => .error e t := by
  change EStateM.map f m s = _
  rw [EStateM.map]
  cases m s <;> rfl

/-- No run leaves the state larger than it was. -/
structure Shrinks (size : σ → Nat) (m : EStateM ε σ α) : Prop where
  le : ∀ s, size (stateOf (m s)) ≤ size s

/-- What a composed run leaves is what its first part leaves, or its second part after that. -/
theorem stateOf_bind (m : EStateM ε σ α) (f : α → EStateM ε σ β) (s : σ) :
    stateOf ((m >>= f) s) =
      match m s with
      | .ok a s' => stateOf (f a s')
      | .error _ s' => s' := by
  rw [bind_apply]
  cases m s <;> rfl

/-- What is done with the value of a run does not change the state that it leaves. -/
theorem stateOf_map (f : α → β) (m : EStateM ε σ α) (s : σ) :
    stateOf ((f <$> m) s) = stateOf (m s) := by
  rw [map_apply]
  cases m s <;> rfl

namespace Shrinks

variable {size : σ → Nat}

theorem pure (a : α) : Shrinks size (Pure.pure a : EStateM ε σ α) :=
  ⟨fun _ => Nat.le_refl _⟩

theorem throw (e : ε) : Shrinks size (MonadExcept.throw e : EStateM ε σ α) :=
  ⟨fun _ => Nat.le_refl _⟩

/-- Runs one after the other shrink the measure if each of them does. -/
theorem bind {m : EStateM ε σ α} {f : α → EStateM ε σ β} (hm : Shrinks size m)
    (hf : ∀ a, Shrinks size (f a)) : Shrinks size (m >>= f) := by
  constructor
  intro s
  have hs := hm.le s
  rw [stateOf_bind]
  cases h : m s with
  | ok a s' => rw [h] at hs; exact Nat.le_trans ((hf a).le s') hs
  | error e s' => rw [h] at hs; exact hs

theorem map {m : EStateM ε σ α} (hm : Shrinks size m) (f : α → β) : Shrinks size (f <$> m) :=
  bind hm fun _ => pure _

/-- A run that succeeds leaves no larger state. -/
theorem le_of_ok {m : EStateM ε σ α} (hm : Shrinks size m) {s s' : σ} {a : α}
    (h : m s = .ok a s') : size s' ≤ size s := by
  have := hm.le s
  rwa [h] at this

/-- A run that fails leaves no larger state. -/
theorem le_of_error {m : EStateM ε σ α} (hm : Shrinks size m) {s s' : σ} {e : ε}
    (h : m s = .error e s') : size s' ≤ size s := by
  have := hm.le s
  rwa [h] at this

theorem ite {c : Prop} [Decidable c] {m n : EStateM ε σ α} (hm : Shrinks size m)
    (hn : Shrinks size n) : Shrinks size (if c then m else n) := by
  split
  · exact hm
  · exact hn

end Shrinks

namespace Cursor

/-- Handing a character back lengthens what is pending by it, and no more. -/
theorem size_handBack_le (k : Cursor) (c : Char) : (k.handBack c).size ≤ k.size + 1 := by
  unfold size pending handBack
  split <;> split <;> simp_all [retreat]

theorem shrinks_next : Shrinks size next := by
  constructor
  intro k
  unfold next
  split
  · simp_all [size, stateOf, pending, advance]
  · split <;> simp_all [size, stateOf, pending, advance]

/-- After a character has been delivered, handing it back leaves no more than there was. -/
theorem size_handBack_le_of_next {k k' : Cursor} {c d : Char} (h : next k = .ok (some c) k') :
    (k'.handBack d).size ≤ k.size :=
  Nat.le_trans (size_handBack_le k' d) (size_lt_of_next h)

/-- Characters put in front of what was taken do not change the cursor. -/
theorem stateOf_prepend (cs : List Char) (r : EStateM.Result Cause Cursor (List Char)) :
    stateOf (prepend cs r) = stateOf r := by
  cases r <;> rfl

/-- Characters are put in front of the value of a run, if it has one. -/
theorem map_prepend (cs : List Char) (m : Scan (List Char)) (k : Cursor) :
    ((cs ++ ·) <$> m) k = prepend cs (m k) := by
  rw [map_apply]
  cases m k <;> rfl

/-- The loop that takes characters as a program. -/
theorem takeTo_eq (last : Char → Cursor → Cursor) (stop : Char → Bool) :
    (takeTo last stop : Scan (List Char)) = (do
      match ← (next : Scan (Option Char)) with
      | none => return []
      | some c =>
        if stop c then modifyGet fun k => ([], last c k)
        else ([c] ++ ·) <$> (takeTo last stop : Scan (List Char)) : Scan (List Char)) := by
  funext k
  rw [takeTo.eq_def, bind_apply]
  rcases next k with ⟨- | c, k₁⟩ | ⟨e, k₁⟩
  · rfl
  · dsimp only
    split
    · rfl
    · exact (map_prepend _ _ _).symm
  · rfl

/-- The loop ends at the first character that stops it. -/
theorem takeTo_of_stop {last : Char → Cursor → Cursor} {stop : Char → Bool} {k l : Cursor}
    {c : Char} (hnext : next k = .ok (some c) l) (hc : stop c = true) :
    takeTo last stop k = .ok [] (last c l) := by
  rw [takeTo.eq_def, hnext]
  simp only [hc, if_true]

/-- Any other character is taken, and the loop goes on behind it. -/
theorem takeTo_of_next {last : Char → Cursor → Cursor} {stop : Char → Bool} {k l : Cursor}
    {c : Char} (hnext : next k = .ok (some c) l) (hc : ¬ stop c = true) :
    takeTo last stop k = prepend [c] (takeTo last stop l) := by
  rw [takeTo.eq_def, hnext]
  dsimp only
  rw [if_neg hc]

/-- The loop that passes over blanks as a program. -/
theorem nextForm_eq : (nextForm : Scan (Option Char)) = (do
    match ← (next : Scan (Option Char)) with
    | none => return none
    | some c => if Text.isBlank c then (nextForm : Scan (Option Char)) else return some c :
      Scan (Option Char)) := by
  funext k
  rw [nextForm.eq_def, bind_apply]
  rcases next k with ⟨- | c, k₁⟩ | ⟨e, k₁⟩
  · rfl
  · dsimp only
    cases Text.isBlank c <;> rfl
  · rfl

/-- What is done with the last character may hand it back, since it was delivered. -/
theorem shrinks_takeTo {last : Char → Cursor → Cursor}
    (hlast : ∀ c k, (last c k).size ≤ k.size + 1) (stop : Char → Bool) :
    Shrinks size (takeTo last stop) := by
  constructor
  intro k
  fun_induction takeTo last stop k with
  | case1 k e k₁ h => exact shrinks_next.le_of_error h
  | case2 k k₁ h => exact shrinks_next.le_of_ok h
  | case3 k c k₁ h _ => exact Nat.le_trans (hlast c k₁) (size_lt_of_next h)
  | case4 k c k₁ h _ ih =>
    rw [stateOf_prepend]
    exact Nat.le_trans ih (shrinks_next.le_of_ok h)

theorem shrinks_takeUntil (stop : Char → Bool) : Shrinks size (takeUntil stop) :=
  shrinks_takeTo (fun c k => size_handBack_le k c) stop

theorem shrinks_takeThrough (stop : Char → Bool) : Shrinks size (takeThrough stop) :=
  shrinks_takeTo (fun _ _ => Nat.le_succ _) stop

theorem shrinks_nextForm : Shrinks size nextForm := by
  constructor
  intro k
  fun_induction nextForm k with
  | case1 k e k₁ h => exact shrinks_next.le_of_error h
  | case2 k k₁ h => exact shrinks_next.le_of_ok h
  | case3 k c k₁ h _ ih => exact Nat.le_trans ih (shrinks_next.le_of_ok h)
  | case4 k c k₁ h _ => exact shrinks_next.le_of_ok h

/-- Delivering the first character of a form leaves less to deliver. -/
theorem size_lt_of_nextForm {k k' : Cursor} {c : Char} (h : nextForm k = .ok (some c) k') :
    k'.size < k.size := by
  fun_induction nextForm k with
  | case1 k e k₁ hk => cases h
  | case2 k k₁ hk => cases h
  | case3 k d k₁ hk _ ih => exact Nat.lt_trans (ih h) (size_lt_of_next hk)
  | case4 k d k₁ hk _ =>
    cases h
    exact size_lt_of_next hk

end Cursor

end FormTree
