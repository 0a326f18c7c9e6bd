import FormTree.Proofs.Number.Grouped
import FormTree.Proofs.Number.Ratio
import Mathlib.Data.Nat.Digits.Defs

/-!
# Digits in a radix

What is read from digits in a radix of its own choice. Every run of digits below the radix is read,
as the number that the digits denote by their places, but these are not the only texts that are
read: the reader of integers under it takes one sign before the digits, next to the sign that the
caller has apart from them, and underscores behind the first digit.
-/

namespace FormTree

open Numeral Text

namespace Numeral

/-- The number that digits denote by their places, the last one counting once. -/
def positional (radix : Nat) (cs : List Char) : Nat :=
  Nat.ofDigits radix (cs.reverse.map fun c => (alphanumericValue? c).getD 0)

variable {radix : Nat} {cs : List Char}

/-- The value of a digit is the one it has as a letter or digit. -/
theorem getD_digitValue? {c : Char} (h : isDigitIn radix c = true) :
    (digitValue? radix c).getD 0 = (alphanumericValue? c).getD 0 := by
  obtain ⟨d, hd⟩ := Option.isSome_iff_exists.1 h
  rw [hd, (Option.filter_eq_some_iff.1 hd).1]

/-- Adding digits one by one gives what they denote by their places. -/
theorem value_eq_positional (h : isNumeral radix cs = true) :
    value radix cs = positional radix cs := by
  obtain ⟨-, hall⟩ := Bool.and_eq_true_iff.1 h
  have hdigits : (cs.map fun c => (digitValue? radix c).getD 0) =
      cs.map fun c => (alphanumericValue? c).getD 0 :=
    List.map_congr_left fun c hc => getD_digitValue? (List.all_eq_true.1 hall c hc)
  have hfold (ds : List Nat) : ∀ n : Nat, ds.foldl (fun n d => n * radix + d) n =
      Nat.ofDigits radix (ds.reverse ++ [n]) := by
    induction ds with
    | nil => intro n; simp
    | cons d ds ih =>
      intro n
      rw [List.foldl_cons, ih, List.reverse_cons, List.append_assoc, Nat.ofDigits_append,
        Nat.ofDigits_append]
      simp [Nat.ofDigits_cons, Nat.add_comm, Nat.mul_comm]
  rw [value, hdigits, ofDigits, hfold, Nat.ofDigits_append, positional, List.map_reverse]
  simp

/-- Digits with underscores among them are digits without them. -/
theorem isNumeral_ungrouped (h : isGrouped radix cs = true) :
    isNumeral radix (ungrouped cs) = true := by
  obtain ⟨d, rest, rfl, hd⟩ := exists_cons_of_isGrouped h
  have hscore : d ≠ '_' := ne_of_isDigitIn hd rfl
  refine Bool.and_eq_true_iff.2 ⟨by simp [ungrouped, hscore], List.all_eq_true.2 fun c hc => ?_⟩
  obtain ⟨hmem, hc⟩ := List.mem_filter.1 hc
  exact (eq_underscore_or_isDigitIn h hmem).resolve_left (bne_iff_ne.1 hc)

end Numeral

namespace Number

/-- Whether a number is an integer in the form that digits are read in: of fixed width if 64 bits
hold it and arbitrary size is not asked for, and of arbitrary size otherwise. -/
structure IsStored (forceBig : Bool) (v : Int) (n : Number) : Prop where
  value : n.toInt? = some v
  width : (∃ w, n = .int w) ↔ fitsInt64 v = true ∧ forceBig = false

/-- Whether a number is read from characters in a radix: digits with underscores among them after an
optional sign. The sign apart from the characters turns the one before them around. -/
def IsReadIn (radix : Nat) (negate forceBig : Bool) (cs : List Char) (n : Number) : Prop :=
  (2 ≤ radix ∧ radix ≤ 36) ∧ ∃ negative body, IsSigned negative body cs ∧
    isGrouped radix body = true ∧
    n.IsStored forceBig
      (if negative = negate then positional radix (ungrouped body)
        else -positional radix (ungrouped body))

/-- Whether characters are digits in a radix, and a number is what they denote with a sign apart. -/
def IsDigits (radix : Nat) (negate forceBig : Bool) (cs : List Char) (n : Number) : Prop :=
  (2 ≤ radix ∧ radix ≤ 36) ∧ isNumeral radix cs = true ∧
    n.IsStored forceBig (if negate then -positional radix cs else positional radix cs)

variable {radix : Nat} {negate forceBig : Bool} {cs : List Char} {v : Int} {n : Number}

/-- An integer has one form. -/
theorem isStored_iff : n.IsStored forceBig v ↔ n = if forceBig then .big v else ofInt v := by
  constructor
  · rintro ⟨hvalue, hwidth⟩
    cases n with
    | int w =>
      obtain ⟨-, rfl⟩ := hwidth.1 ⟨w, rfl⟩
      cases hvalue
      exact (ofInt_toInt w).symm
    | big w =>
      cases hvalue
      rcases forceBig with - | -
      · have hfits : fitsInt64 v = false :=
          Bool.eq_false_iff.2 fun hfits => nomatch hwidth.2 ⟨hfits, rfl⟩
        rw [ofInt, hfits]
        rfl
      · rfl
    | ratio | float | decimal => cases hvalue
  · rintro rfl
    rcases forceBig with - | -
    · refine ⟨toInt?_ofInt v, ?_⟩
      rcases hfits : fitsInt64 v with - | - <;> simp [ofInt, hfits]
    · exact ⟨rfl, by simp⟩

/-- The sign before digits and the sign apart from them together. -/
theorem negate_signedValue {negative : Bool} (h : isGrouped radix cs = true) :
    (if negate then -signedValue radix negative (ungrouped cs)
      else signedValue radix negative (ungrouped cs)) =
      if negative = negate then (positional radix (ungrouped cs) : Int)
      else -positional radix (ungrouped cs) := by
  rw [signedValue, value_eq_positional (isNumeral_ungrouped h)]
  cases negate <;> cases negative <;> simp

/-- What is read from digits in a radix, without a look at what else they are. -/
theorem ofDigits?_eq_some_iff_isReadIn {digits : String} :
    ofDigits? digits radix negate forceBig = some n ↔
      n.IsReadIn radix negate forceBig digits.toList := by
  have hradix : (decide (2 ≤ radix) && decide (radix ≤ 36)) = true ↔
      2 ≤ radix ∧ radix ≤ 36 := by simp
  rw [ofDigits?, Option.ite_none_right_eq_some, hradix]
  refine and_congr_right fun _ => ?_
  constructor
  · intro h
    obtain ⟨m, hm, rfl⟩ := Option.map_eq_some_iff.1 h
    obtain ⟨negative, body, hsigned, hbody, rfl⟩ := integer?_eq_some_iff.1 hm
    refine ⟨negative, body, hsigned, hbody, isStored_iff.2 ?_⟩
    rw [← negate_signedValue hbody]
  · rintro ⟨negative, body, hsigned, hbody, hstored⟩
    refine Option.map_eq_some_iff.2 ⟨_, integer?_eq_some_iff.2
      ⟨negative, body, hsigned, hbody, rfl⟩, ?_⟩
    rw [isStored_iff.1 hstored, ← negate_signedValue hbody]

/-- Digits are read as digits with underscores among them of which there are none. -/
theorem IsDigits.isReadIn (h : n.IsDigits radix negate forceBig cs) :
    n.IsReadIn radix negate forceBig cs := by
  obtain ⟨hradix, hdigits, hstored⟩ := h
  refine ⟨hradix, false, cs, .unsigned cs, isGrouped_of_isNumeral hdigits, ?_⟩
  rw [ungrouped_of_isNumeral hdigits]
  cases negate <;> exact hstored

/-- A text that is read is nothing but digits if it has neither a sign nor an underscore. -/
theorem IsReadIn.isDigits (h : n.IsReadIn radix negate forceBig cs)
    (hplain : ∀ c ∈ ['+', '-', '_'], c ∉ cs) : n.IsDigits radix negate forceBig cs := by
  obtain ⟨hradix, negative, body, hsigned, hbody, hstored⟩ := h
  cases hsigned with
  | unsigned =>
    have hdigits := isNumeral_of_isGrouped hbody (hplain '_' (by decide))
    rw [ungrouped_of_isNumeral hdigits] at hstored
    refine ⟨hradix, hdigits, ?_⟩
    cases negate <;> exact hstored
  | plus => exact absurd List.mem_cons_self (hplain '+' (by decide))
  | minus => exact absurd List.mem_cons_self (hplain '-' (by decide))

/-- Exactly digits with underscores among them, after an optional sign, are read in a radix from 2
to 36; and a text that is read is nothing but digits if and only if it has neither a sign nor an
underscore. -/
theorem ofDigits?_eq_some_iff (digits : String) (radix : Nat)
    (negate forceBig : Bool) (n : Number) :
    (ofDigits? digits radix negate forceBig = some n ↔
      n.IsReadIn radix negate forceBig digits.toList) ∧
    (n.IsDigits radix negate forceBig digits.toList ↔
      ofDigits? digits radix negate forceBig = some n ∧
        ∀ c ∈ ['+', '-', '_'], c ∉ digits.toList) := by
  refine ⟨ofDigits?_eq_some_iff_isReadIn, ?_⟩
  rw [ofDigits?_eq_some_iff_isReadIn]
  constructor
  · intro h
    refine ⟨h.isReadIn, fun c hc hmem => ?_⟩
    have hdigit : isDigitIn radix c = true :=
      List.all_eq_true.1 (Bool.and_eq_true_iff.1 h.2.1).2 c hmem
    simp only [List.mem_cons, List.not_mem_nil, or_false] at hc
    rcases hc with rfl | rfl | rfl <;> exact ne_of_isDigitIn hdigit rfl rfl
  · exact fun h => h.1.isDigits h.2

/-- A sign before the digits undoes the one apart from them. -/
example : ofDigits? "-1_f" 16 true false = some (.int 31) := by decide +kernel

end Number

end FormTree
