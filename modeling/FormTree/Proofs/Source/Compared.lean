import FormTree.Proofs.Related
import FormTree.Proofs.Source.Pending
import FormTree.Reader.Quoted

/-!
# Two scanning runs compared

All that scanning does to a cursor is to take the next character and to hand one back. So two
cursors cannot be told apart by scanning if they give the same character next and still correspond
after that, whether or not a character is then handed back. A **comparison** is a correspondence of
cursors of this kind. Its causes need not be equal, and it may excuse the first run where that fails
for certain causes. Every scanning function, run from corresponding cursors, gives the same and
leaves corresponding cursors.
-/

namespace FormTree

/-- Whether a cause names the line where a sequence began. -/
def Cause.namesLine : Cause → Bool
  | .endInSequence _ => true
  | _ => false

/-- A correspondence of cursors that scanning keeps. -/
structure Scan.Comparison where
  cursors : Cursor → Cursor → Prop
  causes : Cause → Cause → Prop
  /-- the causes for which the first run may fail whatever the second one does -/
  excused : Cause → Prop
  /-- what names no line is the same in both runs -/
  causes_refl : ∀ {e : Cause}, e.namesLine = false → causes e e
  next_accords : ∀ {k l : Cursor}, cursors k l →
    Accords excused causes cursors Eq (Cursor.next k) (Cursor.next l)
  /-- after a character has been delivered to both, one may be handed back to both -/
  handBack : ∀ {k k' l l' : Cursor} {c : Char}, cursors k l → Cursor.next k = .ok (some c) k' →
    Cursor.next l = .ok (some c) l' → ∀ d, cursors (k'.handBack d) (l'.handBack d)

namespace Scan.Comparison

open Cursor

variable (C : Comparison) {α β : Type}

/-- Whether a scanning function, run from corresponding cursors, accords with itself. -/
abbrev Agrees (m : Scan α) : Prop := InAccord C.excused C.cursors C.causes C.cursors Eq m m

/-- Whether two cursors correspond and a character may be handed back to both. -/
def Delivered (k l : Cursor) : Prop :=
  C.cursors k l ∧ ∀ d, C.cursors (k.handBack d) (l.handBack d)

variable {C}

/-- A cause that names no line is thrown alike, wherever the cursors are. -/
theorem throw_accords {P : Cursor → Cursor → Prop} (hP : ∀ k l, P k l → C.cursors k l) {e : Cause}
    (he : e.namesLine = false) :
    InAccord C.excused P C.causes C.cursors Eq (throw e : Scan α) (throw e) :=
  .restrict (.throw (C.causes_refl he)) hP

theorem agrees_throw {e : Cause} (he : e.namesLine = false) : C.Agrees (throw e : Scan α) :=
  .throw (C.causes_refl he)

/-- The next item agrees, as a comparison asks for. -/
theorem agrees_next : C.Agrees next := fun _ _ h => C.next_accords h

/-- What is done with the next character may hand that back. -/
theorem agrees_next_bind {f : Option Char → Scan α} (hnone : C.Agrees (f none))
    (hsome : ∀ c, InAccord C.excused C.Delivered C.causes C.cursors Eq (f (some c)) (f (some c))) :
    C.Agrees (next >>= f) := by
  intro k l h
  refine (C.next_accords h).bind fun c _ k' l' hk hl hc hkl => ?_
  subst hc
  cases c with
  | none => exact hnone _ _ hkl
  | some c => exact hsome c _ _ ⟨hkl, C.handBack h hk hl⟩

/-- A character that both cursors have delivered is handed back to both. -/
theorem unread_accords (c : Char) :
    InAccord C.excused C.Delivered C.causes C.cursors Eq (unread c) (unread c) :=
  fun _ _ h => .ok rfl (h.2 c)

/-! ### Loops -/

/-- Taking characters up to a stop agrees, if the last one is treated alike. -/
theorem agrees_takeTo {last : Char → Cursor → Cursor}
    (hlast : ∀ c k l, C.Delivered k l → C.cursors (last c k) (last c l)) (stop : Char → Bool) :
    C.Agrees (takeTo last stop) := by
  intro k l h
  -- the induction is on what is left at the second cursor, as the loop is
  induction hsize : l.size using Nat.strongRecOn generalizing k l with
  | ind n ih =>
    rw [takeTo_eq]
    refine (C.next_accords h).bind fun c _ k₁ l₁ hk hl hc hkl => ?_
    subst hc
    cases c with
    | none => exact .ok rfl hkl
    | some c =>
      dsimp only
      split
      · exact .ok rfl (hlast c k₁ l₁ ⟨hkl, C.handBack h hk hl⟩)
      · exact (ih _ (hsize ▸ size_lt_of_next hl) k₁ l₁ hkl rfl).map fun _ _ => congrArg _

theorem agrees_takeUntil (stop : Char → Bool) : C.Agrees (takeUntil stop) :=
  agrees_takeTo (fun c _ _ h => h.2 c) stop

theorem agrees_takeThrough (stop : Char → Bool) : C.Agrees (takeThrough stop) :=
  agrees_takeTo (fun _ _ _ h => h.1) stop

theorem agrees_nextForm : C.Agrees nextForm := by
  intro k l h
  induction hsize : l.size using Nat.strongRecOn generalizing k l with
  | ind n ih =>
    rw [nextForm_eq]
    refine (C.next_accords h).bind fun c _ k₁ l₁ _ hl hc hkl => ?_
    subst hc
    cases c with
    | none => exact .ok rfl hkl
    | some c =>
      have hrest := ih _ (hsize ▸ size_lt_of_next hl) k₁ l₁ hkl rfl
      dsimp only
      cases Text.isBlank c with
      | true => exact hrest
      | false => exact .ok rfl hkl

theorem agrees_inString : C.Agrees inString :=
  .bind_eq agrees_next fun c => by
    cases c
    · exact agrees_throw rfl
    · exact .pure rfl

theorem agrees_digits (radix more count code : Nat) : C.Agrees (digits radix more count code) := by
  induction more generalizing count code with
  | zero => exact .pure rfl
  | succ more ih =>
    refine agrees_next_bind (.pure rfl) fun c => ?_
    refine .ite Iff.rfl (.bind (unread_accords c) fun _ _ _ => .pure rfl) ?_
    cases Text.digitValue? radix c with
    | none => exact throw_accords (fun _ _ h => h.1) rfl
    | some d => exact .restrict (ih _ _) fun _ _ h => h.1

theorem agrees_digitsFrom (first : Char) (radix length : Nat) :
    C.Agrees (digitsFrom first radix length) := by
  unfold digitsFrom
  cases Text.digitValue? radix first
  · exact agrees_throw rfl
  · exact agrees_digits _ _ _ _

theorem agrees_codeUnit : C.Agrees codeUnit :=
  .bind_eq agrees_inString fun _ => .bind_eq (agrees_digitsFrom _ _ _) fun _ =>
    .ite Iff.rfl (.pure rfl) (agrees_throw rfl)

theorem agrees_lowUnit (high : Nat) : C.Agrees (lowUnit high) := by
  refine .bind_eq agrees_inString fun backslash => .ite Iff.rfl ?_ (agrees_throw rfl)
  refine .bind_eq agrees_inString fun letter => .ite Iff.rfl ?_ (agrees_throw rfl)
  exact .bind_eq agrees_codeUnit fun low => .ite Iff.rfl (.pure rfl) (agrees_throw rfl)

theorem agrees_scalarFrom (unit n : Nat) : C.Agrees (scalarFrom unit n) := by
  unfold scalarFrom
  cases scalar? n
  · exact agrees_throw rfl
  · exact .pure rfl

theorem agrees_unicodeEscape : C.Agrees unicodeEscape :=
  .bind_eq agrees_codeUnit fun high => .ite Iff.rfl
    (.bind_eq (agrees_lowUnit high) fun _ => agrees_scalarFrom _ _) (agrees_scalarFrom _ _)

theorem agrees_escape : C.Agrees escape := by
  refine .bind_eq agrees_inString fun c => ?_
  split
  case h_8 => exact agrees_unicodeEscape
  case h_9 =>
    refine .ite Iff.rfl ?_ (agrees_throw rfl)
    exact .bind_eq (agrees_digitsFrom _ _ _) fun _ => .ite Iff.rfl (.pure rfl) (agrees_throw rfl)
  all_goals exact .pure rfl

/-- The body of a string agrees, by characters and escapes. -/
theorem agrees_stringBody : C.Agrees stringBody := by
  intro k l h
  induction hsize : l.size using Nat.strongRecOn generalizing k l with
  | ind n ih =>
    rw [stringBody_eq]
    refine (C.next_accords h).bind fun c _ k₁ l₁ _ hl hc hkl => ?_
    subst hc
    cases c with
    | none => exact .error (C.causes_refl rfl) hkl
    | some c =>
      have hlt : l₁.size < n := hsize ▸ size_lt_of_next hl
      dsimp only
      split
      · exact .ok rfl hkl
      split
      · refine (agrees_escape k₁ l₁ hkl).bind fun d _ k₂ l₂ _ hl₂ hd hkl₂ => ?_
        subst hd
        have hlt₂ := Nat.lt_of_le_of_lt (shrinks_escape.le_of_ok hl₂) hlt
        exact (ih _ hlt₂ k₂ l₂ hkl₂ rfl).map fun _ _ => congrArg _
      · exact (ih _ hlt k₁ l₁ hkl rfl).map fun _ _ => congrArg _

theorem agrees_patternBody : C.Agrees patternBody := by
  intro k l h
  induction hsize : l.size using Nat.strongRecOn generalizing k l with
  | ind n ih =>
    rw [patternBody_eq]
    refine (C.next_accords h).bind fun c _ k₁ l₁ _ hl hc hkl => ?_
    subst hc
    cases c with
    | none => exact .error (C.causes_refl rfl) hkl
    | some c =>
      have hlt : l₁.size < n := hsize ▸ size_lt_of_next hl
      dsimp only
      split
      · exact .ok rfl hkl
      split
      · refine (C.next_accords hkl).bind fun d _ k₂ l₂ _ hl₂ hd hkl₂ => ?_
        subst hd
        cases d with
        | none => exact .error (C.causes_refl rfl) hkl₂
        | some d =>
          have hlt₂ := Nat.lt_trans (size_lt_of_next hl₂) hlt
          exact (ih _ hlt₂ k₂ l₂ hkl₂ rfl).map fun _ _ => congrArg _
      · exact (ih _ hlt k₁ l₁ hkl rfl).map fun _ _ => congrArg _

/-! ### Literals -/

theorem agrees_string : C.Agrees string := .map agrees_stringBody fun _ _ h => h ▸ rfl

theorem agrees_pattern : C.Agrees pattern := .map agrees_patternBody fun _ _ h => h ▸ rfl

theorem agrees_token (first : Char) : C.Agrees (token first) :=
  .bind_eq (agrees_takeUntil _) fun _ => .pure rfl

/-- A number that is refused names no line. -/
theorem agrees_number (first : Char) : C.Agrees (number first) := by
  refine .bind_eq (agrees_takeUntil _) fun rest => ?_
  dsimp only
  split
  · exact .pure rfl
  · exact agrees_throw rfl

theorem agrees_line : C.Agrees line := .bind_eq (agrees_takeThrough _) fun _ => .pure rfl

theorem agrees_charLiteral : C.Agrees charLiteral := by
  refine .bind_eq agrees_next fun c => ?_
  cases c with
  | none => exact agrees_throw rfl
  | some c =>
    refine .bind_eq (agrees_token c) fun text => ?_
    rcases h : charForToken text with e | d
    · obtain ⟨_, rfl⟩ := exists_unsupported_of_charForToken h
      exact agrees_throw rfl
    · exact .pure rfl

end Scan.Comparison

end FormTree
