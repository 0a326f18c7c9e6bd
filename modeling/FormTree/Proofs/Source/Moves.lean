import FormTree.Proofs.Source.Pending
import FormTree.Proofs.Triple
import FormTree.Reader.Quoted
import Mathlib.Logic.Relation

/-!
# How scanning moves a cursor

A cursor is moved by delivering what is next, a fault included, and by handing a character back.
A run **moves** its cursor if it does nothing else to it and fails with a fault of the source only
where delivering fails with that fault, and right there. All scanning functions do, from any cursor,
whatever its source delivers.
-/

namespace FormTree

/-- The fault of the source that a cause stands for, if it is one. -/
def Cause.fault? : Cause → Option Fault
  | .source fault => some fault
  | _ => none

namespace Cursor

/-- What may be done to a cursor. -/
inductive Move (k : Cursor) : Cursor → Prop
  | next {c : Option Char} {l : Cursor} (h : next k = .ok c l) : Move k l
  | fault {e : Cause} {l : Cursor} (h : next k = .error e l) : Move k l
  | handBack (c : Char) : Move k (k.handBack c)

/-- Whether moves lead from one cursor to another. -/
abbrev Reaches : Cursor → Cursor → Prop := Relation.ReflTransGen Move

/-- A cursor goes on showing its position, or hiding it. -/
theorem Move.tracked_eq {k l : Cursor} (h : k.Move l) : l.tracked = k.tracked := by
  cases h with
  | handBack c => rfl
  | next h =>
    rw [next_eq] at h
    split at h <;> cases h <;> rfl
  | fault h =>
    rw [next_eq] at h
    split at h <;> cases h
    rfl

/-- A cursor keeps track of its position throughout, or never does. -/
theorem Reaches.tracked_eq {k l : Cursor} (h : k.Reaches l) : l.tracked = k.tracked := by
  induction h with
  | refl => rfl
  | tail _ h ih => exact h.tracked_eq.trans ih

end Cursor

open Cursor

variable {ε σ α β : Type} {cause : ε → Cause} {cursor : σ → Cursor} {k l : Cursor}

/-- Whether a run has only moved a cursor, and has failed with a fault only where delivering did. -/
inductive Led (cause : ε → Cause) (cursor : σ → Cursor) (k : Cursor) : EStateM.Result ε σ α → Prop
  | ok {a : α} {s : σ} (h : k.Reaches (cursor s)) : Led cause cursor k (.ok a s)
  | refused {e : ε} {s : σ} (he : (cause e).fault? = none) (h : k.Reaches (cursor s)) :
    Led cause cursor k (.error e s)
  | failed {e : ε} {fault : Fault} {l : Cursor} {s : σ} (he : cause e = .source fault)
    (h : k.Reaches l) (hnext : next l = .error (.source fault) (cursor s)) :
    Led cause cursor k (.error e s)

/-- Whether every run of a function only moves the cursor. -/
def Moves (cursor : σ → Cursor) (m : EStateM Cause σ α) : Prop :=
  ∀ s, Led id cursor (cursor s) (m s)

namespace Led

/-- A run that goes on where moves have led. -/
theorem after {r : EStateM.Result ε σ α} (h : k.Reaches l) (hr : Led cause cursor l r) :
    Led cause cursor k r := by
  cases hr with
  | ok hl => exact .ok (h.trans hl)
  | refused he hl => exact .refused he (h.trans hl)
  | failed he hl hnext => exact .failed he (h.trans hl) hnext

/-- However a run ends, its cursor has been reached. -/
theorem reaches_stateOf {r : EStateM.Result ε σ α} (h : Led cause cursor k r) :
    k.Reaches (cursor (stateOf r)) := by
  cases h with
  | ok h => exact h
  | refused he h => exact h
  | failed he h hnext => exact h.tail (.fault hnext)

theorem reaches {a : α} {s : σ} (h : Led cause cursor k (.ok a s)) : k.Reaches (cursor s) :=
  h.reaches_stateOf

/-- A run that fails gives no value of any type. -/
theorem error {e : ε} {s : σ} (h : Led (α := α) cause cursor k (.error e s)) :
    Led (α := β) cause cursor k (.error e s) := by
  cases h with
  | refused he hl => exact .refused he hl
  | failed he hl hnext => exact .failed he hl hnext

theorem map {m : EStateM ε σ α} {s : σ} (h : Led cause cursor k (m s)) (f : α → β) :
    Led cause cursor k ((f <$> m) s) := by
  rw [map_apply]
  rcases hm : m s with ⟨a, t⟩ | ⟨e, t⟩ <;> rw [hm] at h
  · exact .ok h.reaches
  · exact h.error

/-- A fault that a run has failed with was next where moves had led. -/
theorem exists_of_source {e : ε} {fault : Fault} {s : σ}
    (h : Led (α := α) cause cursor k (.error e s)) (he : cause e = .source fault) :
    ∃ l, k.Reaches l ∧ next l = .error (.source fault) (cursor s) := by
  cases h with
  | refused hnone _ =>
    rw [he] at hnone
    cases hnone
  | failed he' hl hnext =>
    rw [he] at he'
    cases he'
    exact ⟨_, hl, hnext⟩

end Led

/-! ### Rules -/

namespace Moves

theorem of_ok {m : EStateM Cause σ α} (hm : Moves cursor m) {s t : σ} {a : α}
    (h : m s = .ok a t) : (cursor s).Reaches (cursor t) := by
  have hs := hm s
  rw [h] at hs
  exact hs.reaches

theorem pure (a : α) : Moves cursor (Pure.pure a : EStateM Cause σ α) := fun _ => .ok .refl

theorem throw {e : Cause} (he : e.fault? = none) :
    Moves cursor (MonadExcept.throw e : EStateM Cause σ α) := fun _ => .refused he .refl

theorem bind {m : EStateM Cause σ α} {f : α → EStateM Cause σ β} (hm : Moves cursor m)
    (hf : ∀ a, Moves cursor (f a)) : Moves cursor (m >>= f) := by
  intro s
  have hs := hm s
  rw [bind_apply]
  rcases h : m s with ⟨a, t⟩ | ⟨e, t⟩
  · rw [h] at hs
    exact .after hs.reaches (hf a t)
  · rw [h] at hs
    exact hs.error

theorem map {m : EStateM Cause σ α} (hm : Moves cursor m) (f : α → β) : Moves cursor (f <$> m) :=
  bind hm fun _ => pure _

theorem ite {c : Prop} [Decidable c] {m n : EStateM Cause σ α} (hm : Moves cursor m)
    (hn : Moves cursor n) : Moves cursor (if c then m else n) := by
  split
  · exact hm
  · exact hn

theorem ofExcept {x : Except Cause α} (hx : ∀ e, x = .error e → e.fault? = none) :
    Moves cursor (MonadExcept.ofExcept x : EStateM Cause σ α) := by
  cases x with
  | ok a => exact pure a
  | error e => exact throw (hx e rfl)

end Moves

namespace Scan

/-! ### Single characters -/

/-- The next item is a move, or a fault that comes through as it is. -/
theorem led_next (k : Cursor) : Led id id k (next k) := by
  rcases h : next k with ⟨c, l⟩ | ⟨e, l⟩
  · exact .ok (.single (.next h))
  · have he := h
    rw [next_eq] at he
    split at he <;> cases he
    exact .failed rfl .refl h

theorem moves_next : Moves id next := led_next

theorem moves_unread (c : Char) : Moves id (unread c) := fun _ => .ok (.single (.handBack c))

theorem moves_inString : Moves id inString :=
  .bind moves_next fun c => by
    cases c
    · exact .throw rfl
    · exact .pure _

/-! ### Loops -/

/-- What was scanned before changes nothing about the cursor. -/
theorem led_prepend {r : EStateM.Result Cause Cursor (List Char)} (cs : List Char)
    (h : Led id id k r) : Led id id k (prepend cs r) := by
  cases h with
  | ok h => exact .ok h
  | refused he h => exact .refused he h
  | failed he h hnext => exact .failed he h hnext

/-- Taking characters up to a stop is a number of moves. -/
theorem moves_takeTo {last : Char → Cursor → Cursor}
    (hlast : ∀ c (k : Cursor), k.Reaches (last c k)) (stop : Char → Bool) :
    Moves id (takeTo last stop) := by
  intro k
  have hnext := led_next k
  fun_induction takeTo last stop k with
  | case1 k e k₁ h => rw [h] at hnext; exact hnext.error
  | case2 k k₁ h => rw [h] at hnext; exact .ok hnext.reaches
  | case3 k c k₁ h _ => rw [h] at hnext; exact .ok (hnext.reaches.trans (hlast c k₁))
  | case4 k c k₁ h _ ih =>
    rw [h] at hnext
    exact led_prepend _ (.after hnext.reaches (ih (led_next _)))

theorem moves_takeUntil (stop : Char → Bool) : Moves id (takeUntil stop) :=
  moves_takeTo (fun c _ => .single (.handBack c)) stop

theorem moves_takeThrough (stop : Char → Bool) : Moves id (takeThrough stop) :=
  moves_takeTo (fun _ _ => .refl) stop

theorem moves_nextForm : Moves id nextForm := by
  intro k
  have hnext := led_next k
  fun_induction nextForm k with
  | case1 k e k₁ h => rw [h] at hnext; exact hnext.error
  | case2 k k₁ h => rw [h] at hnext; exact .ok hnext.reaches
  | case3 k c k₁ h _ ih => rw [h] at hnext; exact .after hnext.reaches (ih (led_next _))
  | case4 k c k₁ h _ => rw [h] at hnext; exact .ok hnext.reaches

theorem moves_digits (radix more count code : Nat) : Moves id (digits radix more count code) := by
  induction more generalizing count code with
  | zero => exact .pure _
  | succ more ih =>
    refine .bind moves_next fun c => ?_
    cases c with
    | none => exact .pure _
    | some c =>
      refine .ite (.bind (moves_unread c) fun _ => .pure _) ?_
      cases Text.digitValue? radix c with
      | none => exact .throw rfl
      | some d => exact ih _ _

theorem moves_digitsFrom (first : Char) (radix length : Nat) :
    Moves id (digitsFrom first radix length) := by
  unfold digitsFrom
  cases Text.digitValue? radix first
  · exact .throw rfl
  · exact moves_digits _ _ _ _

theorem moves_codeUnit : Moves id codeUnit :=
  .bind moves_inString fun _ => .bind (moves_digitsFrom _ _ _) fun _ => .ite (.pure _) (.throw rfl)

theorem moves_lowUnit (high : Nat) : Moves id (lowUnit high) :=
  .bind moves_inString fun _ =>
    .ite (.bind moves_inString fun _ =>
      .ite (.bind moves_codeUnit fun _ => .ite (.pure _) (.throw rfl)) (.throw rfl)) (.throw rfl)

theorem moves_scalarFrom (unit n : Nat) : Moves id (scalarFrom unit n) := by
  unfold scalarFrom
  cases scalar? n
  · exact .throw rfl
  · exact .pure _

theorem moves_unicodeEscape : Moves id unicodeEscape :=
  .bind moves_codeUnit fun _ =>
    .ite (.bind (moves_lowUnit _) fun _ => moves_scalarFrom _ _) (moves_scalarFrom _ _)

theorem moves_escape : Moves id escape := by
  refine .bind moves_inString fun c => ?_
  split
  case h_8 => exact moves_unicodeEscape
  case h_9 =>
    exact .ite (.bind (moves_digitsFrom _ _ _) fun _ => .ite (.pure _) (.throw rfl)) (.throw rfl)
  all_goals exact .pure _

theorem moves_stringBody : Moves id stringBody := by
  intro k
  have hnext := led_next k
  fun_induction stringBody k with
  | case1 k e k₁ h => rw [h] at hnext; exact hnext.error
  | case2 k k₁ h => rw [h] at hnext; exact .refused rfl hnext.reaches
  | case3 k c k₁ h _ => rw [h] at hnext; exact .ok hnext.reaches
  | case4 k c k₁ h _ _ d k₂ he ih =>
    rw [h] at hnext
    have hescape := moves_escape.of_ok he
    exact led_prepend _ (.after (hnext.reaches.trans hescape) (ih (led_next _)))
  | case5 k c k₁ h _ _ e k₂ he =>
    rw [h] at hnext
    have hescape := moves_escape k₁
    rw [he] at hescape
    exact .after hnext.reaches hescape.error
  | case6 k c k₁ h _ _ ih =>
    rw [h] at hnext
    exact led_prepend _ (.after hnext.reaches (ih (led_next _)))

theorem moves_patternBody : Moves id patternBody := by
  intro k
  have hnext := led_next k
  fun_induction patternBody k with
  | case1 k e k₁ h => rw [h] at hnext; exact hnext.error
  | case2 k k₁ h => rw [h] at hnext; exact .refused rfl hnext.reaches
  | case3 k c k₁ h _ => rw [h] at hnext; exact .ok hnext.reaches
  | case4 k c k₁ h _ _ e k₂ hd =>
    rw [h] at hnext
    have hescaped := led_next k₁
    rw [hd] at hescaped
    exact .after hnext.reaches hescaped.error
  | case5 k c k₁ h _ _ k₂ hd =>
    rw [h] at hnext
    exact .refused rfl (hnext.reaches.trans (moves_next.of_ok hd))
  | case6 k c k₁ h _ _ d k₂ hd ih =>
    rw [h] at hnext
    exact led_prepend _ (.after (hnext.reaches.trans (moves_next.of_ok hd)) (ih (led_next _)))
  | case7 k c k₁ h _ _ ih =>
    rw [h] at hnext
    exact led_prepend _ (.after hnext.reaches (ih (led_next _)))

/-! ### Literals -/

theorem moves_string : Moves id string := .map moves_stringBody _

theorem moves_pattern : Moves id pattern := .map moves_patternBody _

theorem moves_token (first : Char) : Moves id (token first) :=
  .bind (moves_takeUntil _) fun _ => .pure _

theorem moves_number (first : Char) : Moves id (number first) := by
  refine .bind (moves_takeUntil _) fun rest => ?_
  dsimp only
  split
  · exact .pure _
  · exact .throw rfl

theorem moves_line : Moves id line := .bind (moves_takeThrough _) fun _ => .pure _

theorem moves_charLiteral : Moves id charLiteral := by
  refine .bind moves_next fun c => ?_
  cases c with
  | none => exact .throw rfl
  | some c =>
    refine .bind (moves_token c) fun text => ?_
    rcases h : charForToken text with e | d
    · obtain ⟨_, rfl⟩ := exists_unsupported_of_charForToken h
      exact .throw rfl
    · exact .pure _

end Scan

end FormTree
