import FormTree.Proofs.Source.Compared
import FormTree.Proofs.Source.Moves
import FormTree.Proofs.Text.Utf8

/-!
# Sources that fail once

A cursor on a source that will fail goes side by side with one on a source that has something else
from that place on. They differ in nothing before the failure is met, and scanning that meets it
fails with it. A failure that has been met does not come back: nothing but the source can fail, and
moving a cursor only takes from its source.
-/

namespace FormTree

/-- Whether an item is a failure of the transport. -/
def Item.isFailure : Item → Bool
  | .error (.io _) => true
  | _ => false

namespace Cursor

variable {e : IoFailure} {k l : Cursor}

/-- Whether the second cursor is the first one with another source from the place on where that of
the first one fails. -/
def FailsBeside (e : IoFailure) (k l : Cursor) : Prop :=
  ∃ before after rest, k.source = before ++ .error (.io e) :: after ∧
    l = { k with source := before ++ rest }

theorem FailsBeside.mem_source (h : FailsBeside e k l) : .error (.io e) ∈ k.source := by
  obtain ⟨before, after, -, hk, -⟩ := h
  rw [hk]
  exact List.mem_append_right _ List.mem_cons_self

/-- Cursors with a failure between them have passed the same characters. -/
theorem FailsBeside.position_eq (h : FailsBeside e k l) : k.position = l.position := by
  obtain ⟨-, -, -, -, rfl⟩ := h
  rfl

/-- A character may be handed back to both. -/
theorem FailsBeside.handBack (h : FailsBeside e k l) (c : Char) :
    FailsBeside e (k.handBack c) (l.handBack c) := by
  obtain ⟨before, after, rest, hk, rfl⟩ := h
  exact ⟨before, after, rest, hk, rfl⟩

/-- Up to the failure both cursors deliver the same. -/
theorem FailsBeside.next_accords (h : FailsBeside e k l) :
    Accords (· = .source (.io e)) Eq (FailsBeside e) Eq (next k) (next l) := by
  obtain ⟨before, after, rest, hk, rfl⟩ := h
  rcases hheld : k.held with - | c <;> simp only [next, hheld]
  · rw [hk]
    rcases before with - | ⟨fault | c, before⟩
    · exact .excused rfl
    · exact .error rfl ⟨before, after, rest, rfl, by simp⟩
    · exact .ok rfl ⟨before, after, rest, rfl, by simp [advance]⟩
  · exact .ok rfl ⟨before, after, rest, hk, rfl⟩

/-! ### Failures do not come back -/

/-- How many failures of the transport a source has yet to meet. -/
def failures (k : Cursor) : Nat := k.source.countP Item.isFailure

/-- Only the beginning of a source is used up. -/
theorem source_suffix_next (k : Cursor) : (stateOf (next k)).source <:+ k.source := by
  unfold next
  split
  · exact List.suffix_rfl
  · split <;> rename_i hk
    · exact List.suffix_rfl
    · rw [hk]
      exact List.suffix_cons _ _
    · rw [hk]
      exact List.suffix_cons _ _

/-- Moving a cursor only takes from its source. -/
theorem Move.source_suffix (h : k.Move l) : l.source <:+ k.source := by
  have hnext := source_suffix_next k
  cases h with
  | handBack c => exact List.suffix_rfl
  | next h | fault h => rwa [h] at hnext

theorem Reaches.source_suffix (h : k.Reaches l) : l.source <:+ k.source := by
  induction h with
  | refl => exact List.suffix_rfl
  | tail _ h ih => exact h.source_suffix.trans ih

/-- A failure that has been met is gone, if the source fails only once. -/
theorem notMem_source_of_reaches {k' : Cursor} (hk : k.failures ≤ 1) (h : k.Reaches l)
    (hnext : Cursor.next l = .error (.source (.io e)) k') : .error (.io e) ∉ k'.source := by
  intro hmem
  have hl : l.source = .error (.io e) :: k'.source := by
    unfold Cursor.next at hnext
    split at hnext
    · cases hnext
    · split at hnext <;> cases hnext
      assumption
  have hcount : 0 < k'.source.countP Item.isFailure := List.countP_pos_iff.2 ⟨_, hmem, rfl⟩
  have hle : l.source.countP Item.isFailure ≤ 1 :=
    Nat.le_trans h.source_suffix.sublist.countP_le hk
  rw [hl, List.countP_cons_of_pos rfl] at hle
  omega

end Cursor

/-- Cursors on a failing source and on another one correspond up to the failure, which excuses. -/
def Scan.Comparison.failing (e : IoFailure) : Scan.Comparison where
  cursors := Cursor.FailsBeside e
  causes := Eq
  excused := (· = .source (.io e))
  causes_refl _ := rfl
  next_accords h := h.next_accords
  handBack {k k' l l' c} h hk hl d := by
    have hr := h.next_accords
    rw [hk, hl] at hr
    obtain ⟨_, _, heq, -, h'⟩ := hr.exists_of_ok
    cases heq
    exact h'.handBack d

end FormTree
