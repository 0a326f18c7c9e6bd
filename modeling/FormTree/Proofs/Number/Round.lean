import FormTree.Number.Binary64
import Mathlib.Algebra.Order.Field.Basic
import Mathlib.Algebra.Order.Field.Power
import Mathlib.Algebra.Order.Field.Rat
import Mathlib.Tactic.FieldSimp
import Mathlib.Tactic.Linarith
import Mathlib.Tactic.Positivity
import Mathlib.Tactic.Ring

/-!
# Rounding

How a fraction is rounded in units of its last place, whose exponent is that of the greatest power
of two in it less the digits behind the first one, and how numbers are made of their codes. The
**rounding interval** of a number has what is closer to it than to its neighbours, and what is
halfway if the number is the even one.
-/

namespace FormTree.Binary64

/-! ### Quotients -/

/-- Whether an integer is a fraction rounded to the nearest one, and the even one if another is as
near. -/
structure IsRoundOf (m : Nat) (w : ℚ) : Prop where
  le : |w - m| ≤ 1 / 2
  even : |w - m| = 1 / 2 → m % 2 = 0

namespace IsRoundOf

variable {m : Nat} {u w : ℚ}

/-- Other integers are further away, or else this one is even. -/
theorem of_int (h : IsRoundOf m w) (k : Int) :
    |w - m| ≤ |w - k| ∧ ((k : ℚ) ≠ m → |w - m| = |w - k| → m % 2 = 0) := by
  by_cases hk : (k : ℚ) = m
  · rw [hk]
    exact ⟨le_rfl, fun hne => absurd rfl hne⟩
  · have hstep : (1 : ℚ) ≤ |(k : ℚ) - m| := by
      have hne : k - m ≠ 0 := fun hzero => hk (by exact_mod_cast sub_eq_zero.1 hzero)
      exact_mod_cast Int.one_le_abs hne
    have htriangle : |(k : ℚ) - m| ≤ |w - m| + |w - k| := by
      have hsum : (k : ℚ) - m = (w - m) - (w - k) := by ring
      rw [hsum]
      exact abs_sub _ _
    have hle := h.le
    exact ⟨by linarith, fun _ heq => h.even (by linarith)⟩

/-- So is what is below a fraction, and has an integer in between. -/
theorem of_lt (h : IsRoundOf m w) {k : Nat} (hu : u < k) (hw : k ≤ w) : |w - m| < |w - u| := by
  have hk := (h.of_int k).1
  rw [Int.cast_natCast, abs_of_nonneg (by linarith : 0 ≤ w - (k : ℚ))] at hk
  rw [abs_of_pos (by linarith : 0 < w - u)]
  linarith

end IsRoundOf

/-- A quotient is rounded to the nearest integer. -/
theorem isRoundOf_roundDiv {num den : Nat} (hden : 0 < den) :
    IsRoundOf (roundDiv num den) (num / den) := by
  have hdenQ : (0 : ℚ) < den := Nat.cast_pos.2 hden
  have hdiv := Nat.div_add_mod num den
  have hmod := Nat.mod_lt num hden
  have hstep : den * (num / den + 1) = den * (num / den) + den := Nat.mul_succ _ _
  -- twice the fraction, in integers: no division is left there
  have hbounds : 2 * (den * roundDiv num den) ≤ 2 * num + den ∧
      2 * num ≤ 2 * (den * roundDiv num den) + den ∧
      (2 * (den * roundDiv num den) = 2 * num + den ∨
        2 * num = 2 * (den * roundDiv num den) + den → roundDiv num den % 2 = 0) := by
    simp only [roundDiv, Bool.or_eq_true, Bool.and_eq_true, decide_eq_true_eq, beq_iff_eq]
    split
    · rw [hstep]
      omega
    · omega
  generalize roundDiv num den = m at hbounds
  obtain ⟨hlow, hhigh, heven⟩ := hbounds
  have hlow : (2 * (den * m) : ℚ) ≤ 2 * num + den := by exact_mod_cast hlow
  have hhigh : (2 * num : ℚ) ≤ 2 * (den * m) + den := by exact_mod_cast hhigh
  have hsub : (num : ℚ) / den - m = (num - den * m) / den := by field_simp
  refine ⟨?_, fun hhalf => heven ?_⟩
  · rw [hsub, abs_div, abs_of_pos hdenQ, div_le_iff₀ hdenQ, abs_le]
    constructor <;> linarith
  · rw [hsub, abs_div, abs_of_pos hdenQ, div_eq_iff hdenQ.ne', abs_eq (by positivity)] at hhalf
    rcases hhalf with hhalf | hhalf
    · right
      have hhalf : (2 * num : ℚ) = 2 * (den * m) + den := by linarith
      exact_mod_cast hhalf
    · left
      have hhalf : (2 * (den * m) : ℚ) = 2 * num + den := by linarith
      exact_mod_cast hhalf

/-! ### Powers -/

variable {num den : Nat}

theorem zpow_ofNat_of_nonneg {b : ℚ} {e : Int} (h : 0 ≤ e) : b ^ e = b ^ e.toNat := by
  obtain ⟨n, rfl⟩ := Int.eq_ofNat_of_zero_le h
  simp

theorem zpow_of_neg {b : ℚ} {e : Int} (h : ¬ 0 ≤ e) : b ^ e = (b ^ (-e).toNat)⁻¹ := by
  obtain ⟨n, hn⟩ := Int.eq_ofNat_of_zero_le (by omega : 0 ≤ -e)
  obtain rfl : e = -(n : Int) := by omega
  simp

/-- Comparing a fraction with a power needs integers only. -/
theorem zpow_le_div_iff {b : Nat} {e : Int} (hb : 0 < b) (hden : 0 < den) :
    (b : ℚ) ^ e ≤ num / den ↔
      if 0 ≤ e then den * b ^ e.toNat ≤ num else den ≤ num * b ^ (-e).toNat := by
  have hdenQ : (0 : ℚ) < den := Nat.cast_pos.2 hden
  split
  · rename_i he
    rw [zpow_ofNat_of_nonneg he, le_div_iff₀ hdenQ, mul_comm]
    exact_mod_cast Iff.rfl
  · rename_i he
    have hpow : (0 : ℚ) < b ^ (-e).toNat := pow_pos (Nat.cast_pos.2 hb) _
    rw [zpow_of_neg he, le_div_iff₀ hdenQ, inv_mul_le_iff₀ hpow, mul_comm]
    exact_mod_cast Iff.rfl

/-- A fraction is between the powers next to the difference of the logarithms. -/
theorem zpow_log2_le_lt (hnum : 0 < num) (hden : 0 < den) :
    (2 : ℚ) ^ ((Nat.log2 num : Int) - Nat.log2 den - 1) < num / den ∧
      (num : ℚ) / den < 2 ^ ((Nat.log2 num : Int) - Nat.log2 den + 1) := by
  have hdenQ : (0 : ℚ) < den := Nat.cast_pos.2 hden
  have hnumLow : (2 : ℚ) ^ (Nat.log2 num : Int) ≤ num := by
    exact_mod_cast Nat.log2_self_le (by omega)
  have hnumHigh : (num : ℚ) < 2 ^ ((Nat.log2 num : Int) + 1) := by
    exact_mod_cast Nat.lt_log2_self
  have hdenLow : (2 : ℚ) ^ (Nat.log2 den : Int) ≤ den := by
    exact_mod_cast Nat.log2_self_le (by omega)
  have hdenHigh : (den : ℚ) < 2 ^ ((Nat.log2 den : Int) + 1) := by
    exact_mod_cast Nat.lt_log2_self
  -- each bound of the quotient is one of the numerator against one of the denominator
  constructor
  · rw [lt_div_iff₀ hdenQ]
    calc (2 : ℚ) ^ ((Nat.log2 num : Int) - Nat.log2 den - 1) * den
        < 2 ^ ((Nat.log2 num : Int) - Nat.log2 den - 1) * 2 ^ ((Nat.log2 den : Int) + 1) :=
          mul_lt_mul_of_pos_left hdenHigh (zpow_pos (by norm_num) _)
      _ = 2 ^ (Nat.log2 num : Int) := by
          rw [← zpow_add₀ (by norm_num)]
          congr 1
          ring
      _ ≤ num := hnumLow
  · rw [div_lt_iff₀ hdenQ]
    calc (num : ℚ) < 2 ^ ((Nat.log2 num : Int) + 1) := hnumHigh
      _ = 2 ^ ((Nat.log2 num : Int) - Nat.log2 den + 1) * 2 ^ (Nat.log2 den : Int) := by
          rw [← zpow_add₀ (by norm_num)]
          congr 1
          ring
      _ ≤ 2 ^ ((Nat.log2 num : Int) - Nat.log2 den + 1) * den :=
          mul_le_mul_of_nonneg_left hdenLow (zpow_pos (by norm_num) _).le

/-- The logarithm of a fraction, rounded down. -/
theorem zpow_floorLog_le_lt (hnum : 0 < num) (hden : 0 < den) :
    (2 : ℚ) ^ floorLog num den ≤ num / den ∧ (num : ℚ) / den < 2 ^ (floorLog num den + 1) := by
  obtain ⟨hlow, hhigh⟩ := zpow_log2_le_lt hnum hden
  have hreached : ((2 : Nat) : ℚ) ^ ((Nat.log2 num : Int) - Nat.log2 den) ≤ num / den ↔ _ :=
    zpow_le_div_iff (by decide) hden
  rw [floorLog]
  generalize (Nat.log2 num : Int) - Nat.log2 den = e at hlow hhigh hreached
  rw [Nat.cast_ofNat] at hreached
  by_cases hle : (2 : ℚ) ^ e ≤ num / den
  · rw [if_pos (by simpa using hreached.1 hle)]
    exact ⟨hle, hhigh⟩
  · rw [if_neg (by simpa using mt hreached.2 hle), sub_add_cancel]
    exact ⟨hlow.le, lt_of_not_ge hle⟩

/-- A fraction in units of its last place is a fraction again, which is the one that is rounded. -/
theorem exists_scaled (num : Nat) (hden : 0 < den) (e : Int) :
    ∃ n d : Nat, 0 < d ∧ (n : ℚ) / d = num / den / 2 ^ e ∧
      (if 0 ≤ e then roundDiv num (den * 2 ^ e.toNat) else roundDiv (num * 2 ^ (-e).toNat) den) =
        roundDiv n d := by
  by_cases he : 0 ≤ e
  · refine ⟨num, den * 2 ^ e.toNat, by positivity, ?_, if_pos he⟩
    rw [zpow_ofNat_of_nonneg he, div_div]
    push_cast
    rfl
  · refine ⟨num * 2 ^ (-e).toNat, den, hden, ?_, if_neg he⟩
    rw [zpow_of_neg he, div_inv_eq_mul, div_mul_eq_mul_div]
    push_cast
    rfl

/-! ### The rounding interval -/

/-- How far the rounding interval of a number reaches below it, in units of its last place. Below a
power of two the numbers are denser, unless it is the least one. -/
def halfBelow (x : Binary64) : ℚ :=
  if x.significand = 2 ^ 52 ∧ 2 ^ 53 ≤ x.code then 1 / 4 else 1 / 2

/-- Whether a fraction is in the rounding interval of a number, whose ends belong to it if the
significand is even. -/
structure IsRounded (x : Binary64) (v : ℚ) : Prop where
  low : (x.significand - x.halfBelow) * 2 ^ x.exponent ≤ v
  high : v ≤ (x.significand + 1 / 2) * 2 ^ x.exponent
  odd : x.significand % 2 = 1 →
    (x.significand - x.halfBelow) * 2 ^ x.exponent < v ∧
      v < (x.significand + 1 / 2) * 2 ^ x.exponent

theorem halfBelow_pos (x : Binary64) : 0 < x.halfBelow := by
  rw [halfBelow]
  split <;> norm_num

/-- The half of the interval below a number is no wider than that above it. -/
theorem halfBelow_le (x : Binary64) : x.halfBelow ≤ 1 / 2 := by
  rw [halfBelow]
  split <;> norm_num

/-! ### Codes -/

variable {x : Binary64}

/-- A number is its sign and its code. -/
theorem ofCode_code (x : Binary64) : ofCode x.isNegative x.code = x := by
  have hlt := x.bits.toNat_lt
  rw [ofCode, isNegative, code]
  refine congrArg Binary64.mk (UInt64.toNat_inj.1 ?_)
  rw [UInt64.toNat_ofNat']
  by_cases h : 2 ^ 63 ≤ x.bits.toNat
  · rw [if_pos (by simpa using h)]
    omega
  · rw [if_neg (by simpa using h)]
    omega

theorem code_ofCode (negative : Bool) {c : Nat} (h : c ≤ infinityCode) :
    (ofCode negative c).code = c := by
  have hinfinity : infinityCode = 2047 * 2 ^ 52 := rfl
  rw [code, ofCode]
  cases negative <;> simp [UInt64.toNat_ofNat'] <;> omega

theorem isNegative_ofCode (negative : Bool) {c : Nat} (h : c ≤ infinityCode) :
    (ofCode negative c).isNegative = negative := by
  have hinfinity : infinityCode = 2047 * 2 ^ 52 := rfl
  rw [isNegative, ofCode]
  cases negative <;> simp [UInt64.toNat_ofNat'] <;> omega

/-- The code of a number is made of its last place and its significand, with the leading digit of
the significand carried into the exponent. -/
theorem code_eq (x : Binary64) :
    x.code = (x.exponent + 1074).toNat * 2 ^ 52 + x.significand := by
  rw [exponent, significand]
  split <;> omega

theorem significand_lt (x : Binary64) : x.significand < 2 ^ 53 := by
  rw [significand]
  split <;> omega

theorem le_exponent (x : Binary64) : -1074 ≤ x.exponent := by
  rw [exponent]
  omega

theorem exponent_le (h : x.code < infinityCode) : x.exponent ≤ 971 := by
  have hcode : infinityCode = 2047 * 2 ^ 52 := rfl
  rw [exponent]
  omega

/-- The last place is the least one for all codes with no more than 53 binary digits. -/
theorem exponent_iff (x : Binary64) : -1074 < x.exponent ↔ 2 ^ 53 ≤ x.code := by
  rw [exponent]
  omega

/-- Above the least last place the significand has its leading digit. -/
theorem le_significand (h : -1074 < x.exponent) : 2 ^ 52 ≤ x.significand := by
  rw [exponent] at h
  rw [significand]
  split <;> omega

end FormTree.Binary64
