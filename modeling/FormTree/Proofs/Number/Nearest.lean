import FormTree.Proofs.Number.Shortest

/-!
# The nearest number

Rounding gives the number that is nearest to a fraction, and the even one of two that are equally
near. Infinity is where the next number would be if there were one more exponent: what is nearer to
that than to the greatest finite number is infinite.

In units of the last place of a fraction, the significand of its code is the nearest integer. A
number with at least that last place is an integer there as well, and therefore no nearer. A number
with a finer one is below all significands of that length, and so is further away.

What is in the rounding interval of a number is nearest to it, since its neighbours are twice as far
away as the ends of the interval. As only one number is nearest, it is the one that is rounded to.
-/

namespace FormTree.Binary64

/-- The magnitude of a number, infinity having that of the number that would come next. -/
def magnitude (x : Binary64) : ℚ := x.significand * 2 ^ x.exponent

/-- Whether a number has a sign and is the one whose magnitude is nearest to `v`, and the even one
if another is as near. -/
structure IsNearest (x : Binary64) (negative : Bool) (v : ℚ) : Prop where
  isNegative_eq : x.isNegative = negative
  isNaN_eq : x.isNaN = false
  le : ∀ y : Binary64, y.isNaN = false → |v - x.magnitude| ≤ |v - y.magnitude|
  even : ∀ y : Binary64, y.isNaN = false → y.magnitude ≠ x.magnitude →
    |v - x.magnitude| = |v - y.magnitude| → x.significand % 2 = 0

/-! ### Codes -/

variable {x y : Binary64} {num den m : Nat} {e : Int}

theorem two_pow_mul_zpow (n : Nat) (e : Int) : (2 : ℚ) ^ n * 2 ^ e = 2 ^ (n + e) := by
  rw [zpow_add₀ (by norm_num), zpow_natCast]

/-- The number whose code is made of a last place and a significand, which may also be the next
power of two. -/
theorem magnitude_of_code (he : -1074 ≤ e) (hm : m ≤ 2 ^ 53) (hnormal : -1074 < e → 2 ^ 52 ≤ m)
    (hx : x.code = (e + 1074).toNat * 2 ^ 52 + m) :
    x.magnitude = m * 2 ^ e ∧ (m % 2 = 0 → x.significand % 2 = 0) := by
  rcases Nat.lt_or_eq_of_le hm with hlt | rfl
  · have hexponent : x.exponent = e := by
      rw [exponent]
      omega
    have hsignificand : x.significand = m := by
      have heq := code_eq x
      rw [hexponent] at heq
      omega
    rw [magnitude, hexponent, hsignificand]
    exact ⟨rfl, id⟩
  -- `m = 2 ^ 53` carries into the exponent, and the significand starts over
  · have hexponent : x.exponent = e + 1 := by
      rw [exponent]
      omega
    have hsignificand : x.significand = 2 ^ 52 := by
      have heq := code_eq x
      rw [hexponent] at heq
      omega
    rw [magnitude, hexponent, hsignificand, zpow_add_one₀ (by norm_num)]
    refine ⟨?_, fun _ => by decide⟩
    push_cast
    ring

/-- Infinity counts as the number after the greatest one: a power of two, with an even code. -/
theorem magnitude_infinity (hx : x.code = infinityCode) :
    x.magnitude = 2 ^ (1024 : Int) ∧ x.significand % 2 = 0 := by
  have h := magnitude_of_code (x := x) (e := 972) (m := 2 ^ 52) (by decide) (by decide)
    (fun _ => le_rfl) (hx.trans (by decide))
  rw [Nat.cast_pow, Nat.cast_ofNat, two_pow_mul_zpow] at h
  exact ⟨h.1, h.2 (by decide)⟩

/-- With a finer last place a magnitude is below all significands of 53 digits. -/
theorem magnitude_le_of_exponent_lt (h : y.exponent < e) :
    y.magnitude ≤ (2 ^ 52 - 1 / 2) * 2 ^ e := by
  have hsignificand : (y.significand : ℚ) ≤ 2 ^ 53 - 1 := by
    have hlt : ((y.significand + 1 : Nat) : ℚ) ≤ 2 ^ 53 := by exact_mod_cast significand_lt y
    push_cast at hlt
    linarith
  calc y.magnitude ≤ (2 ^ 53 - 1) * 2 ^ y.exponent :=
        mul_le_mul_of_nonneg_right hsignificand (zpow_pos (by norm_num) _).le
    _ ≤ (2 ^ 53 - 1) * 2 ^ (e - 1) :=
        mul_le_mul_of_nonneg_left (zpow_le_zpow_right₀ (by norm_num) (by omega)) (by norm_num)
    _ = (2 ^ 52 - 1 / 2) * 2 ^ e := by
        rw [zpow_sub_one₀ (by norm_num)]
        ring

/-- No magnitude is greater than that of infinity. -/
theorem magnitude_le (hy : y.isNaN = false) : y.magnitude ≤ 2 ^ (1024 : Int) := by
  have hcode : y.code ≤ infinityCode := not_lt.1 (of_decide_eq_false hy)
  rcases Nat.lt_or_eq_of_le hcode with hlt | heq
  · have hexponent : y.exponent < 972 := Int.lt_add_one_of_le (exponent_le hlt)
    calc y.magnitude ≤ (2 ^ 52 - 1 / 2) * 2 ^ (972 : Int) := magnitude_le_of_exponent_lt hexponent
      _ ≤ 2 ^ 52 * 2 ^ (972 : Int) :=
          mul_le_mul_of_nonneg_right (by norm_num) (zpow_pos (by norm_num) _).le
      _ = 2 ^ (1024 : Int) := two_pow_mul_zpow 52 972
  · exact (magnitude_infinity heq).1.le

/-! ### Fractions -/

/-- The last place of a fraction leaves 53 binary digits in front of it, and no less unless it is
the least one. -/
theorem div_zpow_place (hnum : 0 < num) (hden : 0 < den)
    (he : max (floorLog num den - 52) (-1074) = e) :
    (num : ℚ) / den / 2 ^ e < 2 ^ 53 ∧ (-1074 < e → 2 ^ 52 ≤ (num : ℚ) / den / 2 ^ e) := by
  have hpow : (0 : ℚ) < 2 ^ e := zpow_pos (by norm_num) _
  obtain ⟨hlow, hhigh⟩ := zpow_floorLog_le_lt hnum hden
  constructor
  · rw [div_lt_iff₀ hpow]
    calc (num : ℚ) / den < 2 ^ (floorLog num den + 1) := hhigh
      _ ≤ 2 ^ (53 + e) := zpow_le_zpow_right₀ (by norm_num) (by omega)
      _ = 2 ^ 53 * 2 ^ e := (two_pow_mul_zpow 53 e).symm
  · intro hnormal
    rw [le_div_iff₀ hpow]
    calc (2 : ℚ) ^ 52 * 2 ^ e = 2 ^ (52 + e) := two_pow_mul_zpow 52 e
      _ ≤ 2 ^ floorLog num den := zpow_le_zpow_right₀ (by norm_num) (by omega)
      _ ≤ num / den := hlow

/-- Other magnitudes are further away from a fraction than its rounded significand, or else that is
even. -/
theorem IsRoundOf.of_magnitude {w : ℚ} (h : IsRoundOf m w) (hnormal : -1074 < e → 2 ^ 52 ≤ w)
    (y : Binary64) :
    |w * 2 ^ e - m * 2 ^ e| ≤ |w * 2 ^ e - y.magnitude| ∧
      (y.magnitude ≠ m * 2 ^ e → |w * 2 ^ e - m * 2 ^ e| = |w * 2 ^ e - y.magnitude| →
        m % 2 = 0) := by
  have hpow : (0 : ℚ) < 2 ^ e := zpow_pos (by norm_num) _
  have hy : y.magnitude = y.magnitude / 2 ^ e * 2 ^ e := (div_mul_cancel₀ _ hpow.ne').symm
  generalize hu : y.magnitude / 2 ^ e = u at hy
  -- everything is measured in units of the last place
  have habs (k : ℚ) : |w * 2 ^ e - k * 2 ^ e| = |w - k| * 2 ^ e := by
    rw [← sub_mul, abs_mul, abs_of_pos hpow]
  rw [hy, habs, habs, mul_le_mul_iff_left₀ hpow, Ne, mul_left_inj' hpow.ne', mul_left_inj' hpow.ne']
  by_cases hle : e ≤ y.exponent
  · -- at least the same last place: an integer
    have hint : u = ((y.significand * 2 ^ (y.exponent - e).toNat : Nat) : Int) := by
      rw [← hu, magnitude, mul_div_assoc, ← zpow_sub₀ (by norm_num),
        zpow_ofNat_of_nonneg (by omega)]
      push_cast
      rfl
    rw [hint]
    exact h.of_int _
  · -- a finer one: below all significands of 53 digits
    have hsmall : u < (2 ^ 52 : Nat) := by
      have hle := (div_le_iff₀ hpow).2 (magnitude_le_of_exponent_lt (not_le.1 hle))
      push_cast
      linarith
    have hwide : ((2 ^ 52 : Nat) : ℚ) ≤ w := by
      push_cast
      exact hnormal (by have := le_exponent y; omega)
    have hlt := h.of_lt hsmall hwide
    exact ⟨hlt.le, fun _ heq => absurd heq hlt.ne⟩

/-- Zero is nearest to what is less than half of the least number. -/
theorem isNearest_zero {negative : Bool} {v : ℚ} (hv : 0 ≤ v) (hsmall : 2 * v < 2 ^ (-1074 : Int)) :
    (ofCode negative 0).IsNearest negative v := by
  have hcode := code_ofCode negative (Nat.zero_le infinityCode)
  have hx := magnitude_of_code (x := ofCode negative 0) (e := -1074) (m := 0) le_rfl (by decide)
    (fun h => absurd h (lt_irrefl _)) hcode
  rw [Nat.cast_zero, zero_mul] at hx
  refine ⟨isNegative_ofCode negative (Nat.zero_le _), ?_, fun y hy => ?_, fun _ _ _ _ => hx.2 rfl⟩
  · rw [isNaN, hcode]
    rfl
  · rw [hx.1, sub_zero, abs_of_nonneg hv]
    rcases Nat.eq_zero_or_pos y.significand with hzero | hpos
    · rw [magnitude, hzero, Nat.cast_zero, zero_mul, sub_zero]
      exact le_abs_self v
    · have hone : (1 : ℚ) ≤ y.significand := by exact_mod_cast hpos
      have hleast : (2 : ℚ) ^ (-1074 : Int) ≤ y.magnitude :=
        (zpow_le_zpow_right₀ (by norm_num) (le_exponent y)).trans
          (le_mul_of_one_le_left (zpow_pos (by norm_num) _).le hone)
      rw [abs_sub_comm]
      exact le_trans (by linarith) (le_abs_self _)

/-- Infinity is nearest to a magnitude if one that is no less is nearer than all numbers. -/
theorem isNearest_infinity {negative : Bool} {v g : ℚ} (hg : 2 ^ (1024 : Int) ≤ g)
    (h : ∀ y : Binary64, |v - g| ≤ |v - y.magnitude|) :
    (infinity negative).IsNearest negative v := by
  have hcode := code_ofCode negative (le_refl infinityCode)
  obtain ⟨hmagnitude, heven⟩ := magnitude_infinity hcode
  refine ⟨isNegative_ofCode negative le_rfl, ?_, fun y hy => ?_, fun _ _ _ _ => heven⟩
  · rw [isNaN, infinity, hcode, decide_eq_false (lt_irrefl _)]
  · rw [infinity, hmagnitude]
    have hle := magnitude_le hy
    rcases le_total v (2 ^ (1024 : Int)) with hv | hv
    · calc |v - 2 ^ (1024 : Int)| = 2 ^ (1024 : Int) - v := by
            rw [abs_of_nonpos (by linarith), neg_sub]
        _ ≤ g - v := by linarith
        _ ≤ |v - g| := by
            rw [abs_sub_comm]
            exact le_abs_self _
        _ ≤ |v - y.magnitude| := h y
    · rw [abs_of_nonneg (by linarith)]
      exact le_trans (by linarith) (le_abs_self (v - y.magnitude))

/-- What would be the code after the greatest one stands for a magnitude that is no less than that
of infinity. -/
theorem le_of_infinityCode_le (hm : m ≤ 2 ^ 53) (hnormal : -1074 < e → 2 ^ 52 ≤ m)
    (h : infinityCode ≤ (e + 1074).toNat * 2 ^ 52 + m) : (2 : ℚ) ^ (1024 : Int) ≤ m * 2 ^ e := by
  have hinfinity : infinityCode = 2047 * 2 ^ 52 := rfl
  rcases le_or_gt e 971 with hle | hlt
  · obtain ⟨rfl, rfl⟩ : e = 971 ∧ m = 2 ^ 53 := by omega
    rw [Nat.cast_pow, Nat.cast_ofNat, two_pow_mul_zpow]
    exact le_rfl
  · have hm : (2 : ℚ) ^ 52 ≤ m := by exact_mod_cast hnormal (by omega)
    calc (2 : ℚ) ^ (1024 : Int) = 2 ^ 52 * 2 ^ (972 : Int) := (two_pow_mul_zpow 52 972).symm
      _ ≤ m * 2 ^ e :=
          mul_le_mul hm (zpow_le_zpow_right₀ (by norm_num) (by omega)) (zpow_pos (by norm_num) _).le
            (Nat.cast_nonneg m)

/-- The code that a fraction is rounded to, before it is cut off at infinity, is made of a last
place and a significand that no number is nearer than. -/
theorem exists_nearestCode (hnum : 0 < num) (hden : 0 < den) :
    ∃ (e : Int) (m : Nat), -1074 ≤ e ∧ m ≤ 2 ^ 53 ∧ (-1074 < e → 2 ^ 52 ≤ m) ∧
      nearestCode num den = min ((e + 1074).toNat * 2 ^ 52 + m) infinityCode ∧
      ∀ y : Binary64, |(num : ℚ) / den - m * 2 ^ e| ≤ |num / den - y.magnitude| ∧
        (y.magnitude ≠ m * 2 ^ e → |(num : ℚ) / den - m * 2 ^ e| = |num / den - y.magnitude| →
          m % 2 = 0) := by
  obtain ⟨n, d, hd, hvalue, hround⟩ :=
    exists_scaled num hden (max (floorLog num den - 52) (-1074))
  have hcode : nearestCode num den =
      min ((max (floorLog num den - 52) (-1074) + 1074).toNat * 2 ^ 52 + roundDiv n d)
        infinityCode := by
    rw [nearestCode, if_neg (by omega), ← hround]
  have hroundOf : IsRoundOf (roundDiv n d) (n / d) := isRoundOf_roundDiv hd
  -- From here on the scaled fraction occurs only through its value, as a significand at the place
  -- `e`.
  generalize hplace : max (floorLog num den - 52) (-1074) = e at hvalue hcode
  rw [hvalue] at hroundOf
  generalize roundDiv n d = m at hcode hroundOf
  obtain ⟨hlt, hnormal⟩ := div_zpow_place hnum hden hplace
  obtain ⟨hlow, hhigh⟩ := abs_le.1 hroundOf.le
  have hnearer := hroundOf.of_magnitude hnormal
  rw [div_mul_cancel₀ _ (zpow_pos (by norm_num) _).ne'] at hnearer
  refine ⟨e, m, by omega, ?_, fun he => ?_, hcode, hnearer⟩
  -- rounding up may reach the next power of two, but not go past it
  · have hm : (m : ℚ) < 2 ^ 53 + 1 := by linarith
    have hm : m < 2 ^ 53 + 1 := by exact_mod_cast hm
    omega
  · have hm : (2 : ℚ) ^ 52 < m + 1 := by linarith [hnormal he]
    have hm : 2 ^ 52 < m + 1 := by exact_mod_cast hm
    omega

/-- **Rounding gives the nearest number.** -/
theorem isNearest_nearest (negative : Bool) (num : Nat) (hden : 0 < den) :
    (nearest negative num den).IsNearest negative (num / den) := by
  rcases Nat.eq_zero_or_pos num with rfl | hnum
  · rw [nearest, nearestCode, if_pos rfl, Nat.cast_zero, zero_div]
    exact isNearest_zero le_rfl (by rw [mul_zero]; exact zpow_pos (by norm_num) _)
  obtain ⟨e, m, he, hm, hnormal, hcode, hnearer⟩ := exists_nearestCode hnum hden
  rw [nearest, hcode]
  rcases le_total ((e + 1074).toNat * 2 ^ 52 + m) infinityCode with hfinite | hinfinite
  · rw [min_eq_left hfinite]
    have hx := code_ofCode negative hfinite
    obtain ⟨hmagnitude, heven⟩ := magnitude_of_code he hm hnormal hx
    refine ⟨isNegative_ofCode negative hfinite, ?_, fun y _ => ?_, fun y _ => ?_⟩
    · rw [isNaN, hx]
      exact decide_eq_false (not_lt.2 hfinite)
    · rw [hmagnitude]
      exact (hnearer y).1
    · rw [hmagnitude]
      exact fun hne heq => heven ((hnearer y).2 hne heq)
  · rw [min_eq_right hinfinite]
    exact isNearest_infinity (le_of_infinityCode_le hm hnormal hinfinite) fun y => (hnearer y).1

/-! ### Decimals -/

/-- Below the powers of ten that are looked at is less than half of the least number. -/
theorem two_mul_zpow_ten_lt : (2 : ℚ) * 10 ^ (-331 : Int) < 2 ^ (-1074 : Int) := by
  have hleast : (2 : ℚ) * 2 ^ 1074 < 10 ^ 331 := by
    exact_mod_cast (by decide +kernel : 2 * 2 ^ 1074 < 10 ^ 331)
  rw [zpow_neg, zpow_neg, ← div_eq_mul_inv, ← one_div,
    div_lt_div_iff₀ (by positivity) (by positivity), one_mul]
  exact_mod_cast hleast

/-- Above them is no less than infinity. -/
theorem zpow_two_le_zpow_ten : (2 : ℚ) ^ (1024 : Int) ≤ 10 ^ (310 : Int) := by
  exact_mod_cast (by decide +kernel : 2 ^ 1024 ≤ 10 ^ 310)

/-- Between them a decimal is rounded as a fraction. -/
theorem isNearest_nearest_zpow (negative : Bool) (digits : Nat) (exponent : Int) :
    (if 0 ≤ exponent then nearest negative (digits * 10 ^ exponent.toNat) 1
      else nearest negative digits (10 ^ (-exponent).toNat)).IsNearest negative
        (digits * 10 ^ exponent) := by
  split
  · rename_i hexponent
    have h := isNearest_nearest negative (digits * 10 ^ exponent.toNat) Nat.one_pos
    rw [zpow_ofNat_of_nonneg hexponent]
    push_cast at h
    rwa [div_one] at h
  · rename_i hexponent
    have hden : 0 < 10 ^ (-exponent).toNat := by positivity
    have h := isNearest_nearest negative digits hden
    rw [zpow_of_neg hexponent]
    push_cast at h
    rwa [div_eq_mul_inv] at h

/-- **A decimal is rounded to the nearest number**, also where its magnitude is not looked at
because it is far too small or too great. -/
theorem isNearest_ofDecimal (negative : Bool) (digits : Nat) (exponent : Int) :
    (ofDecimal negative digits exponent).IsNearest negative (digits * 10 ^ exponent) := by
  have hvalue : (0 : ℚ) ≤ digits * 10 ^ exponent := by positivity
  rcases Nat.eq_zero_or_pos digits with rfl | hdigits
  · rw [ofDecimal, if_pos (by simp)]
    refine isNearest_zero hvalue ?_
    rw [Nat.cast_zero, zero_mul, mul_zero]
    exact zpow_pos (by norm_num) _
  obtain ⟨hlow, hhigh⟩ := zpow_decimalLength_le_lt hdigits exponent
  have hzero : decide (digits = 0) = false := decide_eq_false (by omega)
  rw [ofDecimal, hzero, Bool.false_or]
  -- The two cut-offs lie outside of the range of the numbers: what is below the first is nearer to
  -- zero than to any other, what is above the second is past infinity.
  by_cases hsmall : exponent + decimalLength digits < -330
  · rw [if_pos (decide_eq_true hsmall)]
    refine isNearest_zero hvalue ?_
    have hpow : (10 : ℚ) ^ (exponent + decimalLength digits) ≤ 10 ^ (-331 : Int) :=
      zpow_le_zpow_right₀ (by norm_num) (by omega)
    linarith [two_mul_zpow_ten_lt]
  rw [if_neg (by simpa using hsmall)]
  by_cases hgreat : 310 < exponent + decimalLength digits
  · rw [if_pos hgreat]
    have hge : (2 : ℚ) ^ (1024 : Int) ≤ digits * 10 ^ exponent :=
      zpow_two_le_zpow_ten.trans ((zpow_le_zpow_right₀ (by norm_num) (by omega)).trans hlow)
    refine isNearest_infinity hge fun y => ?_
    rw [sub_self, abs_zero]
    exact abs_nonneg _
  rw [if_neg hgreat]
  exact isNearest_nearest_zpow negative digits exponent

/-! ### Neighbours -/

/-- From one number to the next is at least a unit of the last place of the smaller one. -/
theorem magnitude_add_le (h : x.code < y.code) : x.magnitude + 2 ^ x.exponent ≤ y.magnitude := by
  have hx := code_eq x
  have hy := code_eq y
  have hxlt := significand_lt x
  have hxe := le_exponent x
  have hpow : (0 : ℚ) < 2 ^ x.exponent := zpow_pos (by norm_num) _
  have hsum : x.magnitude + 2 ^ x.exponent = (x.significand + 1 : Nat) * 2 ^ x.exponent := by
    rw [magnitude]
    push_cast
    ring
  rw [hsum]
  by_cases hlt : x.exponent < y.exponent
  -- `y` is in a later binade, so it is normal, and the number after `x` is at most where that
  -- begins
  · have hsignificand : ((x.significand + 1 : Nat) : ℚ) ≤ 2 ^ 53 := by exact_mod_cast hxlt
    have hnormal : (2 : ℚ) ^ 52 ≤ y.significand := by exact_mod_cast le_significand (by omega)
    calc ((x.significand + 1 : Nat) : ℚ) * 2 ^ x.exponent ≤ 2 ^ 53 * 2 ^ x.exponent :=
          mul_le_mul_of_nonneg_right hsignificand hpow.le
      _ = 2 ^ 52 * 2 ^ (x.exponent + 1) := by
          rw [zpow_add_one₀ (by norm_num)]
          ring
      _ ≤ 2 ^ 52 * 2 ^ y.exponent :=
          mul_le_mul_of_nonneg_left (zpow_le_zpow_right₀ (by norm_num) (by omega)) (by norm_num)
      _ ≤ y.magnitude := mul_le_mul_of_nonneg_right hnormal (zpow_pos (by norm_num) _).le
  -- same exponent, so that the significands differ by one at least
  · have hexponent : y.exponent = x.exponent := by
      rw [exponent, exponent] at hlt ⊢
      omega
    rw [hexponent] at hy
    rw [magnitude, hexponent]
    refine mul_le_mul_of_nonneg_right ?_ hpow.le
    exact_mod_cast (by omega : x.significand + 1 ≤ y.significand)

/-- Codes are in the order of the magnitudes. -/
theorem magnitude_lt (h : x.code < y.code) : x.magnitude < y.magnitude :=
  lt_of_lt_of_le (lt_add_of_pos_right _ (zpow_pos (by norm_num) _)) (magnitude_add_le h)

theorem magnitude_eq (h : x.code = y.code) : x.magnitude = y.magnitude := by
  rw [magnitude, magnitude, exponent, exponent, significand, significand, h]

/-- Where the last place is not the least one, what is below a number by twice the lower half of its
rounding interval has a significand of 53 digits, but for a half. -/
theorem le_significand_sub_halfBelow (h : -1074 < x.exponent) :
    (2 : ℚ) ^ 52 - 1 / 2 ≤ x.significand - 2 * x.halfBelow := by
  have hnormal := le_significand h
  rw [halfBelow]
  split
  · rename_i hpower
    rw [hpower.1]
    norm_num
  · rename_i hpower
    have hne : x.significand ≠ 2 ^ 52 := fun heq => hpower ⟨heq, (exponent_iff x).1 (by omega)⟩
    have hge : ((2 ^ 52 + 1 : Nat) : ℚ) ≤ x.significand := by
      exact_mod_cast (by omega : 2 ^ 52 + 1 ≤ x.significand)
    push_cast at hge
    linarith

/-- The number before another one is where its rounding interval would end if it were twice as
wide. -/
theorem magnitude_le_sub (h : y.code < x.code) :
    y.magnitude ≤ x.magnitude - 2 * x.halfBelow * 2 ^ x.exponent := by
  have hpow : (0 : ℚ) < 2 ^ x.exponent := zpow_pos (by norm_num) _
  have hsum := magnitude_add_le h
  by_cases hexponent : y.exponent = x.exponent
  · have hhalf : x.halfBelow ≤ 1 / 2 := halfBelow_le x
    have hstep := mul_le_mul_of_nonneg_right hhalf hpow.le
    rw [hexponent] at hsum
    linarith
  · -- the last place of the number before is finer, so that its significand has at most 53
    -- digits there
    have hye := le_exponent y
    have hlt : y.exponent < x.exponent := by
      rw [exponent, exponent] at hexponent ⊢
      omega
    have hlow := le_significand_sub_halfBelow (x := x) (by omega)
    calc y.magnitude ≤ (2 ^ 52 - 1 / 2) * 2 ^ x.exponent := magnitude_le_of_exponent_lt hlt
      _ ≤ (x.significand - 2 * x.halfBelow) * 2 ^ x.exponent :=
          mul_le_mul_of_nonneg_right hlow hpow.le
      _ = x.magnitude - 2 * x.halfBelow * 2 ^ x.exponent := sub_mul _ _ _

/-- Which of two points is nearer shows at their middle. -/
theorem abs_sub_le_abs_sub_iff {a b v : ℚ} :
    |v - a| ≤ |v - b| ↔ 0 ≤ (a - b) * (2 * v - a - b) := by
  rw [← sq_le_sq, ← sub_nonneg]
  ring_nf

theorem abs_sub_lt_abs_sub_iff {a b v : ℚ} :
    |v - a| < |v - b| ↔ 0 < (a - b) * (2 * v - a - b) := by
  rw [← sq_lt_sq, ← sub_pos]
  ring_nf

/-- A number is nearest to what is in its rounding interval. -/
theorem IsRounded.isNearest {v : ℚ} (hfinite : x.code < infinityCode) (h : x.IsRounded v) :
    x.IsNearest x.isNegative v := by
  have hpow : (0 : ℚ) < 2 ^ x.exponent := zpow_pos (by norm_num) _
  have hwidth : 0 < x.halfBelow * 2 ^ x.exponent := mul_pos (halfBelow_pos x) hpow
  -- another number is twice as far away as the end of the interval on its side
  have hside (y : Binary64) : y.magnitude = x.magnitude ∨
      y.magnitude ≤ x.magnitude - 2 * x.halfBelow * 2 ^ x.exponent ∨
      x.magnitude + 2 ^ x.exponent ≤ y.magnitude := by
    rcases Nat.lt_trichotomy y.code x.code with hlt | heq | hgt
    · exact .inr (.inl (magnitude_le_sub hlt))
    · exact .inl (magnitude_eq heq)
    · exact .inr (.inr (magnitude_add_le hgt))
  have hlow := h.low
  have hhigh := h.high
  rw [sub_mul, ← magnitude] at hlow
  rw [add_mul, ← magnitude] at hhigh
  refine ⟨rfl, decide_eq_false (by omega), fun y _ => ?_, fun y _ hne heq => ?_⟩
  · rw [abs_sub_le_abs_sub_iff]
    rcases hside y with hy | hy | hy
    · rw [hy, sub_self, zero_mul]
    · exact mul_nonneg (by linarith) (by linarith)
    · exact mul_nonneg_of_nonpos_of_nonpos (by linarith) (by linarith)
  · by_contra hodd
    obtain ⟨hl, hh⟩ := h.odd (by omega)
    rw [sub_mul, ← magnitude] at hl
    rw [add_mul, ← magnitude] at hh
    refine absurd heq (ne_of_lt (abs_sub_lt_abs_sub_iff.2 ?_))
    rcases hside y with hy | hy | hy
    · exact absurd hy hne
    · exact mul_pos (by linarith) (by linarith)
    · exact mul_pos_of_neg_of_neg (by linarith) (by linarith)

/-! ### There is no other nearest number -/

/-- Of two nearest numbers, none has the greater code: they would be equally near, both even, and
one between them nearer. -/
theorem IsNearest.code_le {negative : Bool} {v : ℚ} (hx : x.IsNearest negative v)
    (hy : y.IsNearest negative v) : y.code ≤ x.code := by
  by_contra hlt
  have hmagnitude := magnitude_lt (not_le.1 hlt)
  have hequal := le_antisymm (hx.le y hy.isNaN_eq) (hy.le x hx.isNaN_eq)
  have hxeven := hx.even y hy.isNaN_eq hmagnitude.ne' hequal
  have hyeven := hy.even x hx.isNaN_eq hmagnitude.ne hequal.symm
  have hmiddle : v - x.magnitude = -(v - y.magnitude) :=
    (abs_eq_abs.1 hequal).resolve_left fun h => by linarith
  have hycode : y.code ≤ infinityCode := not_lt.1 (of_decide_eq_false hy.isNaN_eq)
  have hzcode := code_ofCode false (by omega : x.code + 1 ≤ infinityCode)
  by_cases hnext : y.code = x.code + 1
  · have hxparity := code_eq x
    have hyparity := code_eq y
    omega
  · have hznear := hx.le (ofCode false (x.code + 1))
      (decide_eq_false (by rw [hzcode]; omega))
    have hlow := magnitude_lt (x := x) (y := ofCode false (x.code + 1)) (by omega)
    have hhigh := magnitude_lt (x := ofCode false (x.code + 1)) (y := y) (by omega)
    rw [abs_of_nonneg (by linarith : 0 ≤ v - x.magnitude)] at hznear
    exact absurd hznear (not_le.2 (abs_lt.2 ⟨by linarith, by linarith⟩))

/-- **The nearest number is the one that a decimal is rounded to.** -/
theorem isNearest_iff {negative : Bool} {digits : Nat} {exponent : Int} :
    x.IsNearest negative (digits * 10 ^ exponent) ↔ x = ofDecimal negative digits exponent := by
  have hdecimal := isNearest_ofDecimal negative digits exponent
  refine ⟨fun h => ?_, fun h => h ▸ hdecimal⟩
  have hcode := Nat.le_antisymm (hdecimal.code_le h) (h.code_le hdecimal)
  rw [← ofCode_code x, ← ofCode_code (ofDecimal negative digits exponent), hcode,
    h.isNegative_eq, hdecimal.isNegative_eq]

-- two numbers are equally near, and the one with the even significand is the smaller one
example : ofDecimal false 9007199254740993 0 = ofDecimal false 9007199254740992 0 := by
  decide +kernel

end FormTree.Binary64
