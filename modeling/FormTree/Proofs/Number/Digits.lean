import FormTree.Number.Numeral
import FormTree.Proofs.Text.Ascii
import Mathlib.Data.List.TakeDrop

/-!
# Runs of decimal digits

What a run of decimal digits denotes, and that the digits of a natural number denote it.
-/

namespace FormTree

open Text

-- Powers are the core library's here, also below a library with another instance of them.
attribute [local instance (high)] instPowNat

variable {cs ds : List Char} {n : Nat}

namespace Text

/-- A digit here is a digit of the standard library. -/
theorem isDigit_iff {c : Char} : isDigit c = true ↔ c.isDigit = true := by
  simp [isDigit, Char.isDigit, Char.le_def]

/-- Decimal digits have the same value in every radix that has all of them. -/
theorem digitValue?_of_isDigit {radix : Nat} (hradix : 10 ≤ radix) {c : Char}
    (h : isDigit c = true) : digitValue? radix c = some (c.toNat - '0'.toNat) := by
  have hle : c.toNat ≤ 57 := (of_decide_eq_true (Bool.and_eq_true_iff.1 h).2 : c ≤ '9')
  have hvalue : alphanumericValue? c = some (c.toNat - '0'.toNat) := if_pos h
  have hzero : '0'.toNat = 48 := rfl
  rw [digitValue?, hvalue, Option.filter_some, if_pos]
  simp only [decide_eq_true_eq]
  omega

theorem isDigitIn_ten (c : Char) : isDigitIn 10 c = isDigit c := by
  rcases h : isDigit c with - | -
  · rw [Bool.eq_false_iff]
    intro hc
    obtain ⟨d, hd⟩ := Option.isSome_iff_exists.1 hc
    obtain ⟨hvalue, hlt⟩ := Option.filter_eq_some_iff.1 hd
    have hall : (alphanumericValue? c).all (fun d => 10 ≤ d || isDigit c) = true :=
      of_ascii (p := fun c => (alphanumericValue? c).all (fun d => 10 ≤ d || isDigit c) = true)
        (by decide) (toNat_lt_of_alphanumericValue? hvalue)
    simp only [hvalue, h, Option.all_some, Bool.or_false, decide_eq_true_eq] at hall hlt
    omega
  · rw [isDigitIn, digitValue?_of_isDigit (by decide) h]
    rfl

/-- A digit stays one in a greater radix. -/
theorem isDigitIn_mono {r radix : Nat} {c : Char} (hle : r ≤ radix) (h : isDigitIn r c = true) :
    isDigitIn radix c = true := by
  obtain ⟨d, hd⟩ := Option.isSome_iff_exists.1 h
  obtain ⟨hvalue, hlt⟩ := Option.filter_eq_some_iff.1 hd
  have hlt : d < r := of_decide_eq_true hlt
  rw [isDigitIn, digitValue?, hvalue, Option.filter_some, if_pos (decide_eq_true (by omega))]
  rfl

theorem isNumeral_mono {r radix : Nat} (hle : r ≤ radix) (h : isNumeral r cs = true) :
    isNumeral radix cs = true := by
  obtain ⟨hne, hall⟩ := Bool.and_eq_true_iff.1 h
  exact Bool.and_eq_true_iff.2 ⟨hne,
    List.all_eq_true.2 fun c hc => isDigitIn_mono hle (List.all_eq_true.1 hall c hc)⟩

/-- The digits of every radix are letters and digits. -/
theorem isNumeral_alphanumeric {radix : Nat} (h : isNumeral radix cs = true) :
    isNumeral 36 cs = true := by
  obtain ⟨hne, hall⟩ := Bool.and_eq_true_iff.1 h
  refine Bool.and_eq_true_iff.2 ⟨hne, List.all_eq_true.2 fun c hc => ?_⟩
  obtain ⟨d, hd⟩ := Option.isSome_iff_exists.1 (List.all_eq_true.1 hall c hc)
  obtain ⟨hvalue, -⟩ := Option.filter_eq_some_iff.1 hd
  have hlt : (alphanumericValue? c).all (· < 36) = true :=
    of_ascii (p := fun c => (alphanumericValue? c).all (· < 36) = true) (by decide)
      (toNat_lt_of_alphanumericValue? hvalue)
  rw [hvalue, Option.all_some] at hlt
  rw [isDigitIn, digitValue?, hvalue, Option.filter_some, if_pos hlt]
  rfl

/-- A decimal numeral is a text of digits that is not empty. -/
theorem isNumeral_ten (cs : List Char) : isNumeral 10 cs = (!cs.isEmpty && cs.all isDigit) := by
  rw [isNumeral, funext isDigitIn_ten]

theorem isNumeral_ten_iff : isNumeral 10 cs = true ↔ cs ≠ [] ∧ cs.all isDigit = true := by
  simp [isNumeral_ten]

theorem isNumeral_of_all (h : cs.all isDigit = true) (hne : cs ≠ []) : isNumeral 10 cs = true :=
  isNumeral_ten_iff.2 ⟨hne, h⟩

/-- A numeral begins with a digit. -/
theorem exists_cons_of_isNumeral (h : isNumeral 10 cs = true) :
    ∃ d rest, cs = d :: rest ∧ isDigit d = true := by
  obtain ⟨hne, hall⟩ := isNumeral_ten_iff.1 h
  rcases cs with - | ⟨d, rest⟩
  · exact absurd rfl hne
  · exact ⟨d, rest, rfl, (Bool.and_eq_true_iff.1 hall).1⟩

theorem isDigit_of_mem (h : isNumeral 10 cs = true) {c : Char} (hc : c ∈ cs) : isDigit c = true :=
  List.all_eq_true.1 (isNumeral_ten_iff.1 h).2 c hc

/-- A decimal numeral has no character in it that is not a digit. -/
theorem notMem_of_isNumeral (h : isNumeral 10 cs = true) {c : Char} (hc : isDigit c = false) :
    c ∉ cs := by
  intro hmem
  rw [isDigit_of_mem h hmem] at hc
  cases hc

/-- A digit is no character without a value. -/
theorem ne_of_isDigitIn {radix : Nat} {c d : Char} (hc : isDigitIn radix c = true)
    (hd : alphanumericValue? d = none) : c ≠ d := by
  rintro rfl
  rw [isDigitIn, digitValue?, hd] at hc
  cases hc

theorem ne_of_isDigit {c d : Char} (hc : isDigit c = true) (hd : isDigit d = false) : c ≠ d := by
  rintro rfl
  rw [hc] at hd
  cases hd

end Text

namespace Numeral

/-- The value of decimal digits is that of the standard library. -/
theorem value_eq_ofDigitChars (h : cs.all isDigit = true) :
    value 10 cs = Nat.ofDigitChars 10 cs 0 := by
  have hfold (n : Nat) : (cs.map fun c => (digitValue? 10 c).getD 0).foldl
      (fun n d => n * 10 + d) n = Nat.ofDigitChars 10 cs n := by
    induction cs generalizing n with
    | nil => rfl
    | cons c cs ih =>
      obtain ⟨hc, hcs⟩ := Bool.and_eq_true_iff.1 h
      rw [List.map_cons, List.foldl_cons, ih hcs, digitValue?_of_isDigit (by decide) hc,
        Nat.ofDigitChars_cons, Nat.mul_comm]
      rfl
  exact hfold 0

/-- Digits in front of others count for what they denote with as many zeros behind them. -/
theorem value_append (hcs : cs.all isDigit = true) (hds : ds.all isDigit = true) :
    value 10 (cs ++ ds) = 10 ^ ds.length * value 10 cs + value 10 ds := by
  have hall : (cs ++ ds).all isDigit = true := by simp [hcs, hds]
  rw [value_eq_ofDigitChars hall, value_eq_ofDigitChars hcs, value_eq_ofDigitChars hds,
    Nat.ofDigitChars_append, Nat.ofDigitChars_eq_ofDigitChars_zero]

/-- More digits denote no smaller number. -/
theorem value_le_append {radix : Nat} (hradix : 0 < radix) (cs ds : List Char) :
    value radix cs ≤ value radix (cs ++ ds) := by
  have hfold (ds : List Nat) : ∀ n : Nat, n ≤ ds.foldl (fun n d => n * radix + d) n := by
    induction ds with
    | nil => exact Nat.le_refl
    | cons d ds ih =>
      intro n
      have hle : n ≤ n * radix + d := Nat.le_add_right_of_le (Nat.le_mul_of_pos_right n hradix)
      exact Nat.le_trans hle (ih _)
  rw [value, value, ofDigits, ofDigits, List.map_append, List.foldl_append]
  exact hfold _ _

/-! ### Zeros -/

theorem all_replicate_zero (n : Nat) : (List.replicate n '0').all isDigit = true := by
  rw [List.all_eq_true]
  intro c hc
  rw [List.eq_of_mem_replicate hc]
  rfl

/-- Zeros denote zero, however many. -/
theorem value_replicate_zero (n : Nat) : value 10 (List.replicate n '0') = 0 := by
  simp [value_eq_ofDigitChars (all_replicate_zero n)]

/-- Zeros before digits count for nothing. -/
theorem value_zeros_append (n : Nat) (h : cs.all isDigit = true) :
    value 10 (List.replicate n '0' ++ cs) = value 10 cs := by
  rw [value_append (all_replicate_zero n) h, value_replicate_zero, Nat.mul_zero, Nat.zero_add]

/-! ### The digits of a number -/

theorem all_toDigits (n : Nat) : (Nat.toDigits 10 n).all isDigit = true := by
  rw [List.all_eq_true]
  intro c hc
  exact isDigit_iff.2 (Nat.isDigit_of_mem_toDigits (by decide) (by decide) hc)

/-- The digits of a number denote it. -/
@[simp] theorem value_toDigits (n : Nat) : value 10 (Nat.toDigits 10 n) = n := by
  rw [value_eq_ofDigitChars (all_toDigits n), Nat.ofDigitChars_ten_toDigits]

/-- The first digit of a positive number is positive. -/
theorem head?_toDigits (hn : 0 < n) : (Nat.toDigits 10 n).head? ≠ some '0' := by
  induction n using Nat.strongRecOn with
  | ind n ih =>
    by_cases hlt : n < 10
    · rw [Nat.toDigits_of_lt_base hlt]
      simp only [List.head?_cons, ne_eq, Option.some.injEq, Nat.digitChar_eq_zero]
      omega
    · have hpos : 0 < n / 10 := by omega
      rw [Nat.toDigits_of_base_le (by decide) (by omega), List.head?_append]
      have hhead := ih (n / 10) (by omega) hpos
      rcases hdigits : Nat.toDigits 10 (n / 10) with - | ⟨c, cs⟩
      · exact absurd hdigits Nat.toDigits_ne_nil
      · rw [hdigits] at hhead
        simpa using hhead

/-! ### Signs -/

/-- Characters with a minus sign before them or not. -/
def signed (negative : Bool) (cs : List Char) : List Char :=
  if negative then '-' :: cs else cs

/-- The text of an integer is its sign and the digits of its magnitude. -/
theorem toList_toString (n : Int) :
    (toString n).toList = signed (decide (n < 0)) (Nat.toDigits 10 n.natAbs) := by
  rw [Int.toString_eq_repr, Int.repr_eq_if, signed]
  by_cases hn : 0 ≤ n
  · have habs : n.toNat = n.natAbs := by omega
    rw [if_pos hn, if_neg (by simpa using hn), Nat.toList_repr, habs]
  · have habs : (-n).toNat = n.natAbs := by omega
    have hneg : n < 0 := by omega
    rw [if_neg hn, if_pos (by simpa using hneg), String.toList_append, Nat.toList_repr, habs]
    rfl

/-! ### Letters and digits

Neither a sign nor an underscore stands among letters and digits, so that they are read one by
one. -/

section

variable {radix : Nat} (h : isNumeral 36 cs = true)

/-- The digits of a text have values if all of them are digits, and then each its own. -/
theorem mapM_digitValue? (radix : Nat) (cs : List Char) :
    cs.mapM (digitValue? radix) =
      if cs.all (isDigitIn radix) then some (cs.map fun c => (digitValue? radix c).getD 0)
      else none := by
  induction cs with
  | nil => rfl
  | cons c cs ih =>
    rw [List.mapM_cons, ih, List.all_cons, isDigitIn, List.map_cons]
    rcases digitValue? radix c with - | d
    · rfl
    · rw [Option.isSome_some, Bool.true_and]
      split <;> rfl

include h

/-- Without a sign and underscores, a numeral is read digit by digit. -/
theorem natural?_eq_map :
    natural? radix cs = (cs.mapM (digitValue? radix)).map (ofDigits radix) := by
  obtain ⟨hne, hall⟩ := Bool.and_eq_true_iff.1 h
  have hfilter : cs.filter (· != '_') = cs := by
    refine List.filter_eq_self.2 fun c hc => bne_iff_ne.2 ?_
    exact ne_of_isDigitIn (List.all_eq_true.1 hall c hc) rfl
  rcases cs with - | ⟨c, cs⟩
  · cases hne
  · obtain ⟨hc, -⟩ := Bool.and_eq_true_iff.1 hall
    have hplus : c ≠ '+' := ne_of_isDigitIn hc rfl
    have hscore : c ≠ '_' := ne_of_isDigitIn hc rfl
    rw [natural?.eq_def]
    split
    · rename_i heq
      cases heq
      exact absurd rfl hplus
    · dsimp only
      rw [if_neg (by simpa using hscore), hfilter]

/-- A sign before a numeral turns its value around, or does nothing. -/
theorem integer?_signed_eq_map (negative : Bool) :
    integer? radix (signed negative cs) =
      (natural? radix cs).map fun n : Nat => if negative then -(n : Int) else n := by
  obtain ⟨hne, hall⟩ := Bool.and_eq_true_iff.1 h
  rcases cs with - | ⟨c, cs⟩
  · cases hne
  · obtain ⟨hc, -⟩ := Bool.and_eq_true_iff.1 hall
    have hplus : c ≠ '+' := ne_of_isDigitIn hc rfl
    have hminus : c ≠ '-' := ne_of_isDigitIn hc rfl
    rcases negative with - | -
    · rw [signed, if_neg (by decide), integer?.eq_def]
      split
      · rename_i heq
        cases heq
        exact absurd rfl hminus
      · rename_i heq
        cases heq
        exact absurd rfl hminus
      · rcases natural? radix (c :: cs) with - | n <;> rfl
    · rw [signed, if_pos rfl, integer?.eq_def]
      split
      · rename_i heq
        cases heq
        exact absurd rfl hplus
      · rename_i heq
        cases heq
        rcases natural? radix (c :: cs) with - | n <;> rfl
      · rename_i heq
        exact absurd rfl (heq _)

/-- Letters and digits with a sign or without one are an integer if all are digits of the radix. -/
theorem integer?_signed_eq_ite (negative : Bool) :
    integer? radix (signed negative cs) =
      if isNumeral radix cs then
        some (if negative then -(value radix cs : Int) else value radix cs)
      else none := by
  have hne := (Bool.and_eq_true_iff.1 h).1
  rw [integer?_signed_eq_map h, natural?_eq_map h, mapM_digitValue?, isNumeral, hne, Bool.true_and]
  rcases cs.all (isDigitIn radix) with - | - <;> rfl

end

/-- Digits with a sign or without one are an integer. -/
theorem integer?_signed {radix : Nat} (h : isNumeral radix cs = true) (negative : Bool) :
    integer? radix (signed negative cs) =
      some (if negative then -(value radix cs : Int) else value radix cs) := by
  rw [integer?_signed_eq_ite (isNumeral_alphanumeric h), if_pos h]

end Numeral

end FormTree
