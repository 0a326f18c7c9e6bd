import FormTree.Number.Basic
import Mathlib.Algebra.Order.Ring.Rat

/-!
# Quotients of integers

The quotient of two integers is a number in one form only: an integer where the denominator divides
the numerator, of fixed width if it fits, and otherwise a fraction in lowest terms with a
denominator above one. So two quotients are the same number just if they are equal as fractions,
whatever the signs and the common factors of their terms.
-/

namespace FormTree.Number

open Numeral

/-- Whether a number is the quotient of two integers, in the form that such a quotient has. -/
inductive IsQuotient (num den : Int) : Number → Prop
  | int {n : Int64} (h : n.toInt * den = num) : IsQuotient num den (.int n)
  | big {n : Int} (hfits : fitsInt64 n = false) (h : n * den = num) : IsQuotient num den (.big n)
  | ratio {q : ℚ} (hden : 2 ≤ q.den) (hcoprime : q.num.natAbs.Coprime q.den)
      (h : q.num * den = num * q.den) : IsQuotient num den (.ratio q)

/-- The number that a fraction is. -/
def ofRat (q : ℚ) : Number :=
  if q.den = 1 then ofInt q.num else .ratio q

variable {num den n : Int} {p q : ℚ} {m : Number}

/-! ### Integers -/

theorem toInt?_ofInt (n : Int) : (ofInt n).toInt? = some n := by
  rw [ofInt]
  split
  · exact congrArg some (toInt_ofInt_of_fitsInt64 ‹_›)
  · rfl

theorem ofInt_toInt (n : Int64) : ofInt n.toInt = .int n := by
  rw [ofInt, if_pos (fitsInt64_toInt n), Int64.ofInt_toInt]

/-! ### Fractions -/

/-- Only the denominator zero gives nothing. -/
theorem ofRatio?_eq_none_iff : ofRatio? num den = none ↔ den = 0 := by
  rw [ofRatio?]
  split
  · exact iff_of_true rfl ‹_›
  · exact iff_of_false (Option.some_ne_none _) ‹_›

/-- A fraction is told by the number that it is. -/
theorem ofRat_inj : ofRat p = ofRat q ↔ p = q := by
  refine ⟨fun h => ?_, congrArg ofRat⟩
  have hne (q : ℚ) (n : Int) : ofInt n ≠ .ratio q := by
    intro h
    have htoInt := toInt?_ofInt n
    rw [h] at htoInt
    cases htoInt
  rw [ofRat, ofRat] at h
  split at h <;> split at h
  · rename_i hp hq
    have hnum := congrArg toInt? h
    rw [toInt?_ofInt, toInt?_ofInt] at hnum
    exact Rat.ext (Option.some.inj hnum) (hp.trans hq.symm)
  · exact absurd h (hne q p.num)
  · exact absurd h.symm (hne p q.num)
  · exact Number.ratio.inj h

/-- A fraction is a quotient if and only if it is one by cross products. -/
theorem divInt_eq_iff (hden : den ≠ 0) : Rat.divInt num den = q ↔ q.num * den = num * q.den := by
  have hq : (q.den : Int) ≠ 0 := Int.natCast_ne_zero.2 q.den_nz
  rw [← Rat.num_divInt_den q, Rat.divInt_eq_divInt_iff hden hq, eq_comm, Rat.num_divInt_den]

/-- The lowest terms of a quotient are proportional to its terms. -/
theorem lowestTerms_mul (num den : Int) :
    (lowestTerms num den).1 * den = num * (lowestTerms num den).2 := by
  have hnum : (Int.gcd num den : Int) * num.tdiv (Int.gcd num den) = num :=
    Int.mul_tdiv_cancel' (Int.gcd_dvd_left num den)
  have hden : (Int.gcd num den : Int) * den.tdiv (Int.gcd num den) = den :=
    Int.mul_tdiv_cancel' (Int.gcd_dvd_right num den)
  have hcross : num.tdiv (Int.gcd num den) * den = num * den.tdiv (Int.gcd num den) :=
    calc num.tdiv (Int.gcd num den) * den
        = num.tdiv (Int.gcd num den) * (Int.gcd num den * den.tdiv (Int.gcd num den)) := by
          rw [hden]
      _ = Int.gcd num den * num.tdiv (Int.gcd num den) * den.tdiv (Int.gcd num den) := by
          rw [Int.mul_left_comm, Int.mul_assoc]
      _ = num * den.tdiv (Int.gcd num den) := by rw [hnum]
  simp only [lowestTerms]
  split
  · rw [Int.neg_mul, Int.mul_neg, hcross]
  · exact hcross

/-- The steps that lead to lowest terms give the fraction. -/
theorem reduced_eq_divInt (h : den ≠ 0) : reduced num den h = Rat.divInt num den := by
  refine ((divInt_eq_iff h).2 ?_).symm
  have hpos := lowestTerms_den_pos num h
  have hcast : ((lowestTerms num den).2.toNat : Int) = (lowestTerms num den).2 := by omega
  rw [reduced, hcast]
  exact lowestTerms_mul num den

theorem ofRatio?_of_ne_zero (h : den ≠ 0) : ofRatio? num den = some (ofRat (.divInt num den)) := by
  rw [ofRatio?, dif_neg h, reduced_eq_divInt h]
  rfl

/-! ### Quotients -/

/-- An integer is the quotient of its multiples. -/
theorem isQuotient_ofInt (h : n * den = num) : IsQuotient num den (ofInt n) := by
  rw [ofInt]
  split
  · exact .int (by rw [toInt_ofInt_of_fitsInt64 ‹_›, h])
  · exact .big (Bool.eq_false_iff.2 ‹_›) h

theorem isQuotient_ofRat (h : q.num * den = num * q.den) : IsQuotient num den (ofRat q) := by
  rw [ofRat]
  split
  · rename_i hone
    rw [hone, Int.natCast_one, Int.mul_one] at h
    exact isQuotient_ofInt h
  · have hpos := q.den_pos
    exact .ratio (by omega) q.reduced h

/-- An integer is a fraction with the denominator one. -/
theorem ofRat_divInt_of_mul (hden : den ≠ 0) (h : n * den = num) :
    ofRat (.divInt num den) = ofInt n := by
  have hdiv : Rat.divInt num den = n := (divInt_eq_iff hden).2 (by simpa using h)
  rw [hdiv]
  rfl

/-- There is one number in the form of a quotient. -/
theorem IsQuotient.eq_ofRat (hden : den ≠ 0) (h : IsQuotient num den m) :
    m = ofRat (.divInt num den) := by
  cases h with
  | int h => rw [ofRat_divInt_of_mul hden h, ofInt_toInt]
  | big hfits h => rw [ofRat_divInt_of_mul hden h, ofInt, if_neg (by simp [hfits])]
  | ratio hq _ h => rw [(divInt_eq_iff hden).2 h, ofRat, if_neg (by omega)]

/-- The quotient of two integers is what is in its form. -/
theorem ofRatio?_eq_some_iff (hden : den ≠ 0) : ofRatio? num den = some m ↔
    IsQuotient num den m := by
  rw [ofRatio?_of_ne_zero hden, Option.some_inj]
  refine ⟨?_, fun h => (h.eq_ofRat hden).symm⟩
  rintro rfl
  exact isQuotient_ofRat ((divInt_eq_iff hden).1 rfl)

/-- Among quotients, those that compare as equal are equal. -/
theorem IsQuotient.same_iff (h : IsQuotient num den m) (l : Number) : m.same l = true ↔ m = l := by
  cases h <;> cases l <;> simp [same]

/-- **Quotients are canonical.** Only the denominator zero gives no number. Otherwise the quotient
is a fraction in lowest terms with a denominator of two or more, or it is an integer, which has
fixed width just if it fits 64 bits; and two quotients are equal if and only if their cross products
are. -/
theorem ofRatio?_canonical (a c : Int) {b d : Int} (hb : b ≠ 0) (hd : d ≠ 0) :
    (∀ num den, ofRatio? num den = none ↔ den = 0) ∧
      (∀ m, ofRatio? a b = some m ↔ IsQuotient a b m) ∧
      (ofRatio? a b = ofRatio? c d ↔ a * d = c * b) ∧
      ∃ m n, ofRatio? a b = some m ∧ ofRatio? c d = some n ∧ (m.same n = true ↔ a * d = c * b) := by
  have hcross : ofRat (.divInt a b) = ofRat (.divInt c d) ↔ a * d = c * b := by
    rw [ofRat_inj, Rat.divInt_eq_divInt_iff hb hd]
  have hquotient : IsQuotient a b (ofRat (.divInt a b)) :=
    (ofRatio?_eq_some_iff hb).1 (ofRatio?_of_ne_zero hb)
  refine ⟨fun _ _ => ofRatio?_eq_none_iff, fun _ => ofRatio?_eq_some_iff hb, ?_, _, _,
    ofRatio?_of_ne_zero hb, ofRatio?_of_ne_zero hd, ?_⟩
  · rw [ofRatio?_of_ne_zero hb, ofRatio?_of_ne_zero hd, Option.some_inj, hcross]
  · rw [hquotient.same_iff, hcross]

/-- Six over minus four is minus three over two. -/
theorem ofRatio?_canonical_negative :
    (-4 : Int) ≠ 0 ∧ (2 : Int) ≠ 0 ∧ ofRatio? 6 (-4) = ofRatio? (-3) 2 ∧
      IsQuotient 6 (-4) (.ratio (.divInt (-3) 2)) := by
  have hb : (-4 : Int) ≠ 0 := by decide
  have hd : (2 : Int) ≠ 0 := by decide
  obtain ⟨-, hquotient, hcross, -⟩ := ofRatio?_canonical 6 (-3) hb hd
  exact ⟨hb, hd, hcross.2 (by decide), (hquotient _).1 (by decide +kernel)⟩

end FormTree.Number
