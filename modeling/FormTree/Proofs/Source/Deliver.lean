import FormTree.Proofs.Source.Pending
import FormTree.Reader.Scan
import FormTree.Proofs.Triple

/-!
# Scanning a text that is left to deliver

Where what is left is known, so is what scanning gives: a token or number runs up to what ends it,
and a line up to its break.
-/

namespace FormTree

namespace Cursor

variable {total : Bool} {cs : List Char}

/-- Whether a cursor has these characters left to deliver. -/
def At (k : Cursor) (cs : List Char) : Prop := k.pending = cs.map Except.ok

/-- Whether, besides, it holds no character, as after delivering one. -/
def Past (k : Cursor) (cs : List Char) : Prop := k.At cs ∧ k.held = none

/-- A cursor on a text is where it begins. -/
theorem at_ofText (text : String) : (ofText text).At text.toList := rfl

/-- The next character is delivered, and may be handed back then. -/
theorem next_of_at_cons {k : Cursor} {c : Char} (h : k.At (c :: cs)) :
    ∃ k', next k = .ok (some c) k' ∧ k'.Past cs := by
  refine ⟨k.past c (cs.map .ok), ?_, rfl, rfl⟩
  rw [next_eq, (h : k.pending = .ok c :: cs.map .ok)]
  rfl

theorem next_of_at_nil {k : Cursor} (h : k.At []) : next k = .ok none k := by
  rw [next_eq, (h : k.pending = [])]
  rfl

/-- The character that was just delivered may be handed back. -/
theorem Past.handBack {k : Cursor} (h : k.Past cs) (c : Char) : (k.handBack c).At (c :: cs) := by
  rw [At, pending_handBack h.2, h.1]
  rfl

theorem triple_next (c : Char) :
    Triple total (At · (c :: cs)) next fun a k => a = some c ∧ k.Past cs :=
  .of_ok fun _ hk =>
    have ⟨k', hnext, hpast⟩ := next_of_at_cons hk
    ⟨some c, k', hnext, rfl, hpast⟩

/-- What is taken are the characters before the first one to stop at. -/
theorem takeTo_of_at (last : Char → Cursor → Cursor) {stop : Char → Bool} {rest : List Char} :
    ∀ {cs : List Char} {k : Cursor}, k.At (cs ++ rest) → cs.all (!stop ·) = true →
      (∀ c ∈ rest.head?, stop c = true) →
        ∃ k', takeTo last stop k = .ok cs k' ∧
          match rest with
          | [] => k'.At []
          | c :: rest => ∃ l, l.Past rest ∧ k' = last c l
  | [], k, hk, _, hstop => by
    rcases rest with - | ⟨c, rest⟩
    · refine ⟨k, ?_, hk⟩
      rw [takeTo.eq_def, next_of_at_nil hk]
    · obtain ⟨l, hnext, hl⟩ := next_of_at_cons hk
      exact ⟨last c l, takeTo_of_stop hnext (hstop c rfl), l, hl, rfl⟩
  | d :: cs, k, hk, hcs, hstop => by
    obtain ⟨hd, hcs⟩ := Bool.and_eq_true_iff.1 hcs
    obtain ⟨l, hnext, hl⟩ := next_of_at_cons hk
    obtain ⟨k', htake, hk'⟩ := takeTo_of_at last hl.1 hcs hstop
    have hd : ¬ stop d = true := by simpa using hd
    exact ⟨k', by rw [takeTo_of_next hnext hd, htake]; rfl, hk'⟩

/-- Characters are taken up to one that stops, which stays. -/
theorem triple_takeUntil {stop : Char → Bool} {rest : List Char} (hcs : cs.all (!stop ·) = true)
    (hstop : ∀ c ∈ rest.head?, stop c = true) :
    Triple total (At · (cs ++ rest)) (takeUntil stop) fun a k => a = cs ∧ k.At rest := by
  refine .of_ok fun k hk => ?_
  obtain ⟨k', htake, hk'⟩ := takeTo_of_at _ hk hcs hstop
  refine ⟨cs, k', htake, rfl, ?_⟩
  rcases rest with - | ⟨c, rest⟩
  · exact hk'
  · obtain ⟨l, hl, rfl⟩ := hk'
    exact hl.handBack c

/-- Characters are taken up to one that stops, which is taken as well. -/
theorem triple_takeThrough {stop : Char → Bool} {rest : List Char} (hcs : cs.all (!stop ·) = true)
    (hstop : ∀ c ∈ rest.head?, stop c = true) :
    Triple total (At · (cs ++ rest)) (takeThrough stop) fun a k => a = cs ∧ k.At rest.tail := by
  refine .of_ok fun k hk => ?_
  obtain ⟨k', htake, hk'⟩ := takeTo_of_at _ hk hcs hstop
  refine ⟨cs, k', htake, rfl, ?_⟩
  rcases rest with - | ⟨c, rest⟩
  · exact hk'
  · obtain ⟨l, hl, rfl⟩ := hk'
    exact hl.1

/-- Blanks before the first character of a form are passed over. -/
theorem nextForm_of_at {c : Char} {cs : List Char} (hc : Text.isBlank c = false) :
    ∀ {ws : List Char} {k : Cursor}, ws.all Text.isBlank = true → k.At (ws ++ c :: cs) →
      ∃ k', nextForm k = .ok (some c) k' ∧ k'.Past cs
  | [], k, _, hk => by
    obtain ⟨k', hnext, hk'⟩ := next_of_at_cons hk
    refine ⟨k', ?_, hk'⟩
    rw [nextForm.eq_def, hnext]
    simp only [hc, Bool.false_eq_true, if_false]
  | w :: ws, k, hws, hk => by
    obtain ⟨hw, hws⟩ := Bool.and_eq_true_iff.1 hws
    obtain ⟨l, hnext, hl⟩ := next_of_at_cons hk
    obtain ⟨k', hform, hk'⟩ := nextForm_of_at hc hws hl.1
    refine ⟨k', ?_, hk'⟩
    rw [nextForm.eq_def, hnext]
    simp only [hw, if_true, hform]

theorem nextForm_of_at_nil {k : Cursor} (h : k.At []) : nextForm k = .ok none k := by
  rw [nextForm.eq_def, next_of_at_nil h]

/-- Behind blanks at the end of a text there is no form. -/
theorem nextForm_of_at_blanks : ∀ {ws : List Char} {k : Cursor}, ws.all Text.isBlank = true →
    k.At ws → ∃ k', nextForm k = .ok none k' ∧ k'.At []
  | [], k, _, hk => ⟨k, nextForm_of_at_nil hk, hk⟩
  | w :: ws, k, hws, hk => by
    obtain ⟨hw, hws⟩ := Bool.and_eq_true_iff.1 hws
    obtain ⟨l, hnext, hl⟩ := next_of_at_cons hk
    obtain ⟨k', hform, hk'⟩ := nextForm_of_at_blanks hws hl.1
    refine ⟨k', ?_, hk'⟩
    rw [nextForm.eq_def, hnext]
    simp only [hw, if_true, hform]

end Cursor

/-- What happens where some characters are left happens whether a character is held or not. -/
theorem Triple.past {α : Type} {total : Bool} {m : Scan α} {Q : α → Cursor → Prop}
    {cs : List Char} (h : Triple total (Cursor.At · cs) m Q) :
    Triple total (Cursor.Past · cs) m Q :=
  h.pre fun _ hk => hk.1

theorem Fails.past {α : Type} {m : Scan α} {e : Cause} {cs : List Char}
    (h : Fails e (Cursor.At · cs) m) : Fails e (Cursor.Past · cs) m :=
  h.pre fun _ hk => hk.1

namespace Scan

open Cursor

variable {total : Bool} {rest : List Char}

/-- A token runs up to what ends it. -/
theorem triple_token {first : Char} {cs : List Char} (hcs : cs.all (!endsToken ·) = true)
    (hrest : ∀ c ∈ rest.head?, endsToken c = true) :
    Triple total (At · (cs ++ rest)) (token first) fun text k =>
      text = String.ofList (first :: cs) ∧ k.At rest :=
  .bind_eq (triple_takeUntil hcs hrest) (.pure fun _ hk => ⟨rfl, hk⟩)

/-- A line runs up to its break, which is passed over. -/
theorem triple_line {text : String} (htext : text.toList.all (!endsLine ·) = true)
    (hrest : ∀ c ∈ rest.head?, endsLine c = true) :
    Triple total (At · (text.toList ++ rest)) line fun a k => a = text ∧ k.At rest.tail :=
  .bind_eq (triple_takeThrough htext hrest) (.pure fun _ hk => ⟨String.ofList_toList, hk⟩)

section

variable {first : Char} {cs : List Char} (hcs : cs.all (!endsNumber ·) = true)
  (hrest : ∀ c ∈ rest.head?, endsNumber c = true)
include hcs hrest

/-- A number runs up to what ends it. -/
theorem triple_number {n : Number}
    (hread : Number.ofToken? (String.ofList (first :: cs)) = some n) :
    Triple total (At · (cs ++ rest)) (number first) fun m k => m = n ∧ k.At rest := by
  refine .bind_eq (triple_takeUntil hcs hrest) ?_
  dsimp only
  rw [hread]
  exact .pure fun _ hk => ⟨rfl, hk⟩

/-- What is no number is refused. -/
theorem triple_number_of_none {Q : Number → Cursor → Prop}
    (hread : Number.ofToken? (String.ofList (first :: cs)) = none) :
    Triple false (At · (cs ++ rest)) (number first) Q := by
  refine .bind_eq (triple_takeUntil hcs hrest) ?_
  dsimp only
  rw [hread]
  exact .throw

end

end Scan

end FormTree
