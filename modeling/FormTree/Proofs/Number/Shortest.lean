import FormTree.Number.Shortest
import FormTree.Proofs.Number.Round

/-!
# The shortest digits of a number round to it

The digits that the search finds are in the rounding interval, and it finds some: seventeen digits
are fine enough a grid for every number.
-/

namespace FormTree.Binary64

namespace Interval

variable {i : Interval} {c : Nat} {g : Int}

theorem onGrid_den_pos (hden : 0 < i.den) : 0 < (i.onGrid g).den := by
  rw [onGrid]
  split
  · exact Nat.mul_pos hden (Nat.pow_pos (by decide))
  · exact hden

@[simp] theorem onGrid_closed : (i.onGrid g).closed = i.closed := by
  rw [onGrid]
  split <;> rfl

/-- Scaling an interval to a grid divides its ends and its value by the spacing. -/
theorem div_onGrid (i : Interval) (g : Int) :
    ((i.onGrid g).low : ℚ) / (i.onGrid g).den = i.low / i.den / 10 ^ g ∧
      ((i.onGrid g).value : ℚ) / (i.onGrid g).den = i.value / i.den / 10 ^ g ∧
      ((i.onGrid g).high : ℚ) / (i.onGrid g).den = i.high / i.den / 10 ^ g := by
  rw [onGrid]
  split
  · rename_i hg
    rw [zpow_ofNat_of_nonneg hg]
    push_cast
    exact ⟨(div_div _ _ _).symm, (div_div _ _ _).symm, (div_div _ _ _).symm⟩
  · rename_i hg
    rw [zpow_of_neg hg]
    simp only [div_inv_eq_mul, div_mul_eq_mul_div]
    push_cast
    exact ⟨rfl, rfl, rfl⟩

/-- A grid point in the interval is a fraction between its ends. -/
theorem of_holds_onGrid (hden : 0 < i.den)
    (h : (i.onGrid g).holds (c * (i.onGrid g).den) = true) :
    ((i.low : ℚ) / i.den ≤ c * 10 ^ g ∧ c * 10 ^ g ≤ (i.high : ℚ) / i.den) ∧
      (i.closed = false →
        (i.low : ℚ) / i.den < c * 10 ^ g ∧ c * 10 ^ g < (i.high : ℚ) / i.den) := by
  obtain ⟨hlow, -, hhigh⟩ := div_onGrid i g
  have hpow : (0 : ℚ) < 10 ^ g := zpow_pos (by norm_num) _
  have hdenQ : (0 : ℚ) < (i.onGrid g).den := Nat.cast_pos.2 (onGrid_den_pos hden)
  -- scaled to the grid, the four comparisons are those of integers
  have hle : (i.onGrid g).low ≤ c * (i.onGrid g).den ↔ (i.low : ℚ) / i.den ≤ c * 10 ^ g := by
    rw [← div_le_iff₀ hpow, ← hlow, div_le_iff₀ hdenQ]
    exact_mod_cast Iff.rfl
  have hge : c * (i.onGrid g).den ≤ (i.onGrid g).high ↔ c * 10 ^ g ≤ (i.high : ℚ) / i.den := by
    rw [← le_div_iff₀ hpow, ← hhigh, le_div_iff₀ hdenQ]
    exact_mod_cast Iff.rfl
  have hlt : (i.onGrid g).low < c * (i.onGrid g).den ↔ (i.low : ℚ) / i.den < c * 10 ^ g := by
    rw [← div_lt_iff₀ hpow, ← hlow, div_lt_iff₀ hdenQ]
    exact_mod_cast Iff.rfl
  have hgt : c * (i.onGrid g).den < (i.onGrid g).high ↔ c * 10 ^ g < (i.high : ℚ) / i.den := by
    rw [← lt_div_iff₀ hpow, ← hhigh, lt_div_iff₀ hdenQ]
    exact_mod_cast Iff.rfl
  rw [holds, onGrid_closed] at h
  split at h
  · rename_i hclosed
    simp only [Bool.and_eq_true, decide_eq_true_eq] at h
    refine ⟨⟨hle.1 h.1, hge.1 h.2⟩, fun hopen => ?_⟩
    rw [hclosed] at hopen
    cases hopen
  · simp only [Bool.and_eq_true, decide_eq_true_eq] at h
    have hl := hlt.1 h.1
    have hh := hgt.1 h.2
    exact ⟨⟨hl.le, hh.le⟩, fun _ => ⟨hl, hh⟩⟩

/-- A point that is found is in the interval. -/
theorem holds_of_nearestPoint? (h : i.nearestPoint? = some c) : i.holds (c * i.den) = true := by
  rw [nearestPoint?] at h
  split at h
  · rename_i hboth
    obtain ⟨hbelow, habove⟩ := Bool.and_eq_true_iff.1 hboth
    split at h <;> cases h
    · exact hbelow
    · exact habove
  split at h
  · cases h
    assumption
  split at h
  · cases h
    assumption
  · cases h

/-- An interval wider than a step has a point in it. -/
theorem nearestPoint?_ne_none (hden : 0 < i.den) (hlow : i.low < i.value)
    (hhigh : i.value < i.high) (hwide : i.low + i.den < i.high) : i.nearestPoint? ≠ none := by
  have hdiv := Nat.div_add_mod' i.value i.den
  have hmul : (i.value / i.den + 1) * i.den = i.value / i.den * i.den + i.den := Nat.succ_mul _ _
  have hmod := Nat.mod_lt i.value hden
  have hholds : i.holds (i.value / i.den * i.den) = true ∨
      i.holds ((i.value / i.den + 1) * i.den) = true := by
    rw [holds, holds]
    rcases i.closed with - | -
    · simp only [Bool.false_eq_true, if_false, Bool.and_eq_true, decide_eq_true_eq]
      omega
    · simp only [if_true, Bool.and_eq_true, decide_eq_true_eq]
      omega
  rw [nearestPoint?]
  rcases hholds with hholds | hholds
  · rw [hholds]
    split
    · exact Option.some_ne_none _
    · exact Option.some_ne_none _
  · rw [hholds]
    split
    · exact Option.some_ne_none _
    · split
      · exact Option.some_ne_none _
      · exact Option.some_ne_none _

/-- The search finds a point in the interval if there is one on a grid that it comes to. -/
theorem holds_of_search {n k d : Nat} {e : Int} (hk : k < n)
    (hfound : (i.onGrid (g - k)).nearestPoint? ≠ none) (h : i.search n g = (d, e)) :
    (i.onGrid e).holds (d * (i.onGrid e).den) = true := by
  induction n generalizing g k with
  | zero => omega
  | succ n ih =>
    rw [search] at h
    split at h
    · rename_i hc
      cases h
      exact holds_of_nearestPoint? hc
    · rename_i hnone
      rcases k with - | k
      · rw [Nat.cast_zero, Int.sub_zero] at hfound
        exact absurd hnone hfound
      · refine ih (k := k) (by omega) ?_ h
        have hgrid : g - 1 - (k : Int) = g - (k + 1 : Nat) := by push_cast; ring
        rwa [hgrid]

end Interval

/-! ### The first digit -/

/-- A number has no fewer digits than are counted. -/
theorem pow_le_of_decimalLength {n : Nat} (hn : 0 < n) : 10 ^ (decimalLength n - 1) ≤ n := by
  rw [decimalLength, if_neg (by omega)]
  by_contra hlt
  rcases Nat.eq_zero_or_pos ((Nat.toDigits 10 n).length - 1) with hzero | hpos
  · rw [hzero] at hlt
    omega
  · have hle := (Nat.length_toDigits_le_iff (by decide) hpos).2 (not_le.1 hlt)
    omega

/-- A number has no more digits than are counted. -/
theorem lt_pow_decimalLength (n : Nat) : n < 10 ^ decimalLength n := by
  rw [decimalLength]
  split
  · omega
  · exact (Nat.length_toDigits_le_iff (by decide) (List.length_pos_iff.2 Nat.toDigits_ne_nil)).1
      (Nat.le_refl _)

/-- The number of digits with an exponent is between two powers of ten. -/
theorem zpow_decimalLength_le_lt {d : Nat} (hd : 0 < d) (e : Int) :
    (10 : ℚ) ^ (e + decimalLength d - 1) ≤ d * 10 ^ e ∧
      (d : ℚ) * 10 ^ e < 10 ^ (e + decimalLength d) := by
  have hpow : (0 : ℚ) < 10 ^ e := zpow_pos (by norm_num) _
  constructor
  · have hle : (10 : ℚ) ^ (decimalLength d - 1) ≤ d := by exact_mod_cast pow_le_of_decimalLength hd
    have hlength : 0 < decimalLength d := by
      by_contra hzero
      have hlt := lt_pow_decimalLength d
      rw [Nat.eq_zero_of_not_pos hzero] at hlt
      omega
    have hexponent : e + decimalLength d - 1 = e + (decimalLength d - 1 : Nat) := by omega
    rw [hexponent, zpow_add₀ (by norm_num), mul_comm, zpow_natCast]
    exact mul_le_mul_of_nonneg_right hle hpow.le
  · have hlt : (d : ℚ) < 10 ^ decimalLength d := by exact_mod_cast lt_pow_decimalLength d
    rw [zpow_add₀ (by norm_num), mul_comm, zpow_natCast]
    exact mul_lt_mul_of_pos_left hlt hpow

/-- The place of the first digit of a fraction is not counted too high. -/
theorem zpow_decimalPlace_le {num den : Nat} (hnum : 0 < num) (hden : 0 < den) :
    (10 : ℚ) ^ (decimalPlace num den - 1) ≤ num / den := by
  have hiff : ((10 : Nat) : ℚ) ^ (decimalPlace num den - 1) ≤ num / den ↔ _ :=
    zpow_le_div_iff (by decide) hden
  rw [Nat.cast_ofNat] at hiff
  rw [hiff, decimalPlace]
  by_cases hle : den ≤ num
  · have hquotient : 0 < num / den := Nat.div_pos hle hden
    have hlength : 0 < decimalLength (num / den) := by
      by_contra hzero
      have hlt := lt_pow_decimalLength (num / den)
      rw [Nat.eq_zero_of_not_pos hzero] at hlt
      omega
    have hpow := pow_le_of_decimalLength hquotient
    rw [Nat.le_div_iff_mul_le hden] at hpow
    have hexponent : ((decimalLength (num / den) : Int) - 1).toNat =
        decimalLength (num / den) - 1 := by omega
    rw [if_pos hle, if_pos (by omega), hexponent, Nat.mul_comm]
    exact hpow
  -- below one, the zeros behind the point are counted by the inverse
  · have hlength : 0 < decimalLength ((den - 1) / num) := by
      by_contra hzero
      have hlt := lt_pow_decimalLength ((den - 1) / num)
      rw [Nat.eq_zero_of_not_pos hzero, Nat.div_lt_iff_lt_mul hnum] at hlt
      omega
    have hpow := lt_pow_decimalLength ((den - 1) / num)
    rw [Nat.div_lt_iff_lt_mul hnum] at hpow
    have hexponent : (-(1 - (decimalLength ((den - 1) / num) : Int) - 1)).toNat =
        decimalLength ((den - 1) / num) := by omega
    rw [if_neg hle, if_neg (by omega), hexponent, Nat.mul_comm]
    omega

/-! ### The rounding interval -/

variable {x : Binary64}

theorem significand_pos (h : 0 < x.code) : 0 < x.significand := by
  rw [significand]
  split <;> omega

theorem interval_den_pos (x : Binary64) : 0 < x.interval.den := by
  rw [interval]
  dsimp only
  split
  · exact Nat.one_pos
  · exact Nat.pow_pos (by decide)

/-- What the interval has over its denominator, as a fraction. -/
theorem div_interval_den (x : Binary64) (n : Nat) :
    ((n * (if 0 ≤ x.exponent - 2 then 2 ^ (x.exponent - 2).toNat else 1) : Nat) : ℚ) /
      x.interval.den = n / 4 * 2 ^ x.exponent := by
  have hpow : (2 : ℚ) ^ x.exponent = 4 * 2 ^ (x.exponent - 2) := by
    rw [zpow_sub₀ (by norm_num)]
    ring
  rw [interval, hpow]
  dsimp only
  split
  · rename_i he
    rw [zpow_ofNat_of_nonneg he]
    push_cast
    ring
  · rename_i he
    rw [zpow_of_neg he]
    push_cast
    ring

/-- The ends of the rounding interval, as fractions, are half a unit of the last place away, or a
quarter below a power of two. -/
theorem div_interval (h : 0 < x.code) :
    (x.interval.low : ℚ) / x.interval.den = (x.significand - x.halfBelow) * 2 ^ x.exponent ∧
      (x.interval.value : ℚ) / x.interval.den = x.significand * 2 ^ x.exponent ∧
      (x.interval.high : ℚ) / x.interval.den = (x.significand + 1 / 2) * 2 ^ x.exponent := by
  have hpos := significand_pos h
  refine ⟨?_, ?_, ?_⟩
  · have hlow : x.interval.low =
        (4 * x.significand - if x.significand == 2 ^ 52 && 2 ^ 53 ≤ x.code then 1 else 2) *
          (if 0 ≤ x.exponent - 2 then 2 ^ (x.exponent - 2).toNat else 1) := rfl
    rw [hlow, div_interval_den, halfBelow]
    by_cases hpower : x.significand = 2 ^ 52 ∧ 2 ^ 53 ≤ x.code
    · rw [if_pos (by simpa using hpower), if_pos hpower, Nat.cast_sub (by omega)]
      push_cast
      ring
    · rw [if_neg (by simpa using hpower), if_neg hpower, Nat.cast_sub (by omega)]
      push_cast
      ring
  · have hvalue : x.interval.value = 4 * x.significand *
        (if 0 ≤ x.exponent - 2 then 2 ^ (x.exponent - 2).toNat else 1) := rfl
    rw [hvalue, div_interval_den]
    push_cast
    ring
  · have hhigh : x.interval.high = (4 * x.significand + 2) *
        (if 0 ≤ x.exponent - 2 then 2 ^ (x.exponent - 2).toNat else 1) := rfl
    rw [hhigh, div_interval_den]
    push_cast
    ring

/-- The interval is wide enough for a grid of seventeen digits. -/
theorem mul_lt_width (x : Binary64) :
    (x.significand : ℚ) * 2 ^ x.exponent * 10 ^ (-16 : Int) <
      (x.halfBelow + 1 / 2) * 2 ^ x.exponent := by
  have hpow : (0 : ℚ) < 2 ^ x.exponent := zpow_pos (by norm_num) _
  have hsignificand : (x.significand : ℚ) * 10 ^ (-16 : Int) < x.halfBelow + 1 / 2 := by
    rw [halfBelow]
    split
    · rename_i h
      rw [h.1]
      norm_num
    · have hlt : (x.significand : ℚ) < 2 ^ 53 := by exact_mod_cast significand_lt x
      have hpower : (10 : ℚ) ^ (-16 : Int) = 1 / 10 ^ 16 := by norm_num
      rw [hpower]
      linarith
  calc (x.significand : ℚ) * 2 ^ x.exponent * 10 ^ (-16 : Int)
      = x.significand * 10 ^ (-16 : Int) * 2 ^ x.exponent := by ring
    _ < (x.halfBelow + 1 / 2) * 2 ^ x.exponent := mul_lt_mul_of_pos_right hsignificand hpow

theorem interval_value_pos (h : 0 < x.code) : 0 < x.interval.value := by
  obtain ⟨-, hvalue, -⟩ := div_interval h
  have hden : (0 : ℚ) < x.interval.den := Nat.cast_pos.2 (interval_den_pos x)
  have hsignificand : (0 : ℚ) < x.significand := Nat.cast_pos.2 (significand_pos h)
  have hfraction : (0 : ℚ) < x.interval.value / x.interval.den := by
    rw [hvalue]
    positivity
  exact_mod_cast (div_pos_iff_of_pos_right hden).1 hfraction

/-- Sixteen places after the first digit of a number, one step of the grid is less than the width of
its interval. -/
theorem zpow_lt_width (h : 0 < x.code) :
    (10 : ℚ) ^ (decimalPlace x.interval.value x.interval.den - 1 - 16) <
      (x.halfBelow + 1 / 2) * 2 ^ x.exponent := by
  obtain ⟨-, hvalue, -⟩ := div_interval h
  have hplace := zpow_decimalPlace_le (interval_value_pos h) (interval_den_pos x)
  rw [hvalue] at hplace
  rw [sub_eq_add_neg _ (16 : Int), zpow_add₀ (by norm_num)]
  exact (mul_le_mul_of_nonneg_right hplace (zpow_pos (by norm_num) _).le).trans_lt (mul_lt_width x)

/-- Somewhere on its way the search comes to a grid with a point in the interval. -/
theorem nearestPoint?_interval_ne_none (h : 0 < x.code) :
    (x.interval.onGrid (decimalPlace x.interval.value x.interval.den - 1 - 16)).nearestPoint? ≠
      none := by
  have hstep := zpow_lt_width h
  generalize decimalPlace x.interval.value x.interval.den - 1 - 16 = g at hstep
  obtain ⟨hlow, hvalue, hhigh⟩ := div_interval h
  obtain ⟨hl, hv, hh⟩ := Interval.div_onGrid x.interval g
  rw [hlow] at hl
  rw [hvalue] at hv
  rw [hhigh] at hh
  have hden : 0 < (x.interval.onGrid g).den := Interval.onGrid_den_pos (interval_den_pos x)
  have hdenQ : (0 : ℚ) < (x.interval.onGrid g).den := Nat.cast_pos.2 hden
  have hpow : (0 : ℚ) < 2 ^ x.exponent := zpow_pos (by norm_num) _
  have hgrid : (0 : ℚ) < 10 ^ g := zpow_pos (by norm_num) _
  have hhalf := halfBelow_pos x
  -- the three parts of the interval are compared as fractions over its denominator
  refine Interval.nearestPoint?_ne_none hden ?_ ?_ ?_
  · have hlt : ((x.interval.onGrid g).low : ℚ) / (x.interval.onGrid g).den <
        (x.interval.onGrid g).value / (x.interval.onGrid g).den := by
      rw [hl, hv]
      refine div_lt_div_of_pos_right (mul_lt_mul_of_pos_right ?_ hpow) hgrid
      linarith
    exact_mod_cast (div_lt_div_iff_of_pos_right hdenQ).1 hlt
  · have hlt : ((x.interval.onGrid g).value : ℚ) / (x.interval.onGrid g).den <
        (x.interval.onGrid g).high / (x.interval.onGrid g).den := by
      rw [hv, hh]
      refine div_lt_div_of_pos_right (mul_lt_mul_of_pos_right ?_ hpow) hgrid
      linarith
    exact_mod_cast (div_lt_div_iff_of_pos_right hdenQ).1 hlt
  · have hlt : ((x.interval.onGrid g).low : ℚ) / (x.interval.onGrid g).den + 1 <
        (x.interval.onGrid g).high / (x.interval.onGrid g).den := by
      rw [hl, hh, ← lt_sub_iff_add_lt', ← sub_div, lt_div_iff₀ hgrid, one_mul]
      linarith
    rw [div_add_one hdenQ.ne', div_lt_div_iff_of_pos_right hdenQ] at hlt
    exact_mod_cast hlt

/-- What the search finds is in the rounding interval. -/
theorem isRounded_search (h : 0 < x.code) {d : Nat} {e : Int}
    (hsearch : x.interval.search 17 (decimalPlace x.interval.value x.interval.den - 1) = (d, e)) :
    x.IsRounded (d * 10 ^ e) := by
  obtain ⟨hlow, -, hhigh⟩ := div_interval h
  have hholds := Interval.holds_of_search (k := 16) (by decide)
    (nearestPoint?_interval_ne_none h) hsearch
  obtain ⟨⟨hl, hh⟩, hopen⟩ := Interval.of_holds_onGrid (interval_den_pos x) hholds
  rw [hlow] at hl hopen
  rw [hhigh] at hh hopen
  refine ⟨hl, hh, fun hodd => hopen ?_⟩
  rw [interval]
  simp [hodd]

/-- The shortest digits of a number are in its rounding interval. -/
theorem isRounded_shortest (h : 0 < x.code) {d : Nat} {e : Int} (hshortest : x.shortest = (d, e)) :
    x.IsRounded (d * 10 ^ e) := by
  rw [shortest] at hshortest
  rcases hsearch : x.interval.search 17 (decimalPlace x.interval.value x.interval.den - 1) with
    ⟨d', e'⟩
  have hrounded := isRounded_search h hsearch
  rw [hsearch] at hshortest
  dsimp only at hshortest
  split at hshortest
  · rename_i hzero
    cases hshortest
    have hvalue : ((d' / 10 : Nat) : ℚ) * 10 ^ (e' + 1) = d' * 10 ^ e' := by
      have hd : (d' : ℚ) = 10 * (d' / 10 : Nat) := by
        exact_mod_cast (Nat.mul_div_cancel' (Nat.dvd_of_mod_eq_zero hzero)).symm
      rw [zpow_add_one₀ (by norm_num), hd]
      ring
    rwa [hvalue]
  · cases hshortest
    exact hrounded

end FormTree.Binary64
