import FormTree.Proofs.Source.Compared

/-!
# Scanning does not look at positions

Two cursors are **alike** if they have the same left to deliver and both show positions or neither
does. Where they stand does not matter, nor whether the next character comes from the source or was
handed back. Scanning from alike cursors gives the same and leaves alike cursors. A character may be
handed back only right after one has been delivered: a cursor holds one character at most.
-/

namespace FormTree

namespace Cursor

/-- Whether two cursors have the same left to deliver and agree on showing positions. -/
structure Alike (k l : Cursor) : Prop where
  pending_eq : k.pending = l.pending
  tracked_eq : k.tracked = l.tracked

/-- Whether two cursors are alike and hold no character, as after delivering one. -/
structure Released (k l : Cursor) : Prop extends Alike k l where
  held_left : k.held = none
  held_right : l.held = none

/-- Both cursors have positions or neither has. -/
theorem Alike.isSome_position_eq {k l : Cursor} (h : k.Alike l) :
    k.position.isSome = l.position.isSome := by
  unfold position
  rw [h.tracked_eq]
  split <;> rfl

/-- The cursor at the beginning of what a cursor has left to deliver. -/
def restart (k : Cursor) : Cursor :=
  { ofItems k.pending with tracked := k.tracked }

/-- A cursor that starts over differs in its position only. -/
theorem alike_restart (k : Cursor) : k.Alike k.restart := ⟨rfl, rfl⟩

theorem Released.handBack {k l : Cursor} (h : k.Released l) (c : Char) :
    (k.handBack c).Alike (l.handBack c) := by
  constructor
  · rw [pending_handBack h.held_left, pending_handBack h.held_right, h.pending_eq]
  · exact h.tracked_eq

end Cursor

namespace Scan

open Cursor

variable {α : Type}

/-- Whether a scanning function does the same at alike cursors. -/
abbrev Blind (m : Scan α) : Prop := Respects Cursor.Alike Eq Cursor.Alike Eq m m

/-- Alike cursors correspond: they show the same next character, and hold none after that. Causes
may be compared in any way that tells no cause from itself. -/
def Comparison.alike (causes : Cause → Cause → Prop) (hrefl : ∀ e, causes e e) : Comparison where
  cursors := Cursor.Alike
  causes := causes
  excused _ := False
  causes_refl _ := hrefl _
  next_accords {k l} h := by
    rw [next_eq, next_eq, h.pending_eq]
    split
    · exact .ok rfl h
    · exact .ok rfl ⟨rfl, h.tracked_eq⟩
    · exact .error (hrefl _) ⟨rfl, h.tracked_eq⟩
  handBack {k k' l l' c} h hk hl d := by
    obtain ⟨rest, hkrest, rfl⟩ := exists_past_of_next hk
    obtain ⟨rest', hlrest, rfl⟩ := exists_past_of_next hl
    have hrest : rest = rest' := List.tail_eq_of_cons_eq (hkrest ▸ h.pending_eq.trans hlrest)
    have hkl : (k.past c rest).Alike (l.past c rest') := ⟨hrest, h.tracked_eq⟩
    exact Released.handBack ⟨hkl, rfl, rfl⟩ d

/-- What agrees in this comparison is blind. -/
theorem Blind.of_agrees {m : Scan α} (hm : (Comparison.alike Eq Eq.refl).Agrees m) : Blind m :=
  hm.respects fun _ => False.elim

theorem blind_pattern : Blind pattern := .of_agrees Comparison.agrees_pattern

/-- Scanning a string does not depend on where it stands. -/
theorem blind_string : Blind string := .of_agrees Comparison.agrees_string

theorem blind_token (first : Char) : Blind (token first) :=
    .of_agrees (Comparison.agrees_token first)

theorem blind_number (first : Char) : Blind (number first) :=
  .of_agrees (Comparison.agrees_number first)

theorem blind_line : Blind line := .of_agrees Comparison.agrees_line

theorem blind_charLiteral : Blind charLiteral := .of_agrees Comparison.agrees_charLiteral

end Scan

end FormTree
