import FormTree.Number.Decimal
import FormTree.Number.Shortest

/-!
# Numbers

The numbers that a literal can denote. Integers have two representations, of fixed width and of
arbitrary size, and are told apart; a ratio is in lowest terms with a denominator above one.
-/

namespace FormTree

/-- A number literal's value. -/
inductive Number where
  /-- An integer of 64 bits. -/
  | int (value : Int64)
  /-- An integer of arbitrary size. -/
  | big (value : Int)
  /-- A fraction in lowest terms. -/
  | ratio (value : Rat)
  /-- A binary floating-point number. -/
  | float (value : Binary64)
  /-- An exact decimal. -/
  | decimal (value : Decimal)
  deriving DecidableEq, Repr, Inhabited

namespace Number

/-- An integer in the smallest representation that holds it. -/
def ofInt (n : Int) : Number :=
  if Numeral.fitsInt64 n then .int (Int64.ofInt n) else .big n

/-- Reads the digits of an integer. A value that fits 64 bits has fixed width, unless `forceBig`
asks for arbitrary size. Radixes are from 2 to 36. -/
def ofDigits? (digits : String) (radix : Nat) (negate forceBig : Bool) : Option Number :=
  if 2 ≤ radix && radix ≤ 36 then
    (Numeral.integer? radix digits.toList).map fun n =>
      let n := if negate then -n else n
      if forceBig then .big n else ofInt n
  else none

/-- The terms of a quotient in lowest terms, the denominator positive: both are divided by what they
have in common, and where the denominator is negative then, both change their sign. -/
def lowestTerms (num den : Int) : Int × Int :=
  let gcd : Int := Int.gcd num den
  let n := num.tdiv gcd
  let d := den.tdiv gcd
  if d < 0 then (-n, -d) else (n, d)

section

variable {num den : Int}

/-- Up to their sign the lowest terms are the terms without what these have in common. -/
theorem natAbs_lowestTerms (num den : Int) :
    (lowestTerms num den).1.natAbs = num.natAbs / Int.gcd num den ∧
      (lowestTerms num den).2.natAbs = den.natAbs / Int.gcd num den := by
  have hnum : (num.tdiv (Int.gcd num den)).natAbs = num.natAbs / Int.gcd num den :=
    Int.natAbs_tdiv num _
  have hden : (den.tdiv (Int.gcd num den)).natAbs = den.natAbs / Int.gcd num den :=
    Int.natAbs_tdiv den _
  simp only [lowestTerms]
  split
  · exact ⟨(Int.natAbs_neg _).trans hnum, (Int.natAbs_neg _).trans hden⟩
  · exact ⟨hnum, hden⟩

/-- The denominator of a fraction in lowest terms is positive, whatever the signs were. -/
theorem lowestTerms_den_pos (num : Int) (h : den ≠ 0) : 0 < (lowestTerms num den).2 := by
  have hgcd : 0 < Int.gcd num den := Int.gcd_pos_of_ne_zero_right num h
  have hle : Int.gcd num den ≤ den.natAbs :=
    Nat.le_of_dvd (Int.natAbs_pos.2 h) (Int.gcd_dvd_natAbs_right num den)
  have hpos : 0 < (lowestTerms num den).2.natAbs := by
    rw [(natAbs_lowestTerms num den).2]
    exact Nat.div_pos hle hgcd
  have hnonneg : 0 ≤ (lowestTerms num den).2 := by
    simp only [lowestTerms]
    split
    · exact Int.neg_nonneg_of_nonpos (Int.le_of_lt ‹_›)
    · exact Int.not_lt.1 ‹_›
  omega

/-- Lowest terms have nothing in common. -/
theorem coprime_lowestTerms (h : den ≠ 0) :
    (lowestTerms num den).1.natAbs.Coprime (lowestTerms num den).2.toNat := by
  have hpos := lowestTerms_den_pos num h
  have htoNat : (lowestTerms num den).2.toNat = (lowestTerms num den).2.natAbs := by omega
  obtain ⟨hnum, hden⟩ := natAbs_lowestTerms num den
  rw [htoNat, hnum, hden]
  exact Nat.coprime_div_gcd_div_gcd (Int.gcd_pos_of_ne_zero_right num h)

/-- The quotient of two integers as a fraction in lowest terms. -/
def reduced (num den : Int) (h : den ≠ 0) : Rat where
  num := (lowestTerms num den).1
  den := (lowestTerms num den).2.toNat
  den_nz := by
    have hpos := lowestTerms_den_pos num h
    omega
  reduced := coprime_lowestTerms h

end

/-- The quotient of two integers: an integer where the denominator divides the numerator, a fraction
in lowest terms elsewhere, and nothing for the denominator zero. -/
def ofRatio? (num den : Int) : Option Number :=
  if h : den = 0 then none
  else
    let q := reduced num den h
    some (if q.den = 1 then ofInt q.num else .ratio q)

/-- The value as an integer of 64 bits, if it is one. -/
def toInt64? : Number → Option Int64
  | .int n => some n
  | .big n => if Numeral.fitsInt64 n then some (Int64.ofInt n) else none
  | _ => none

/-- The value as an integer, if it is one. -/
def toInt? : Number → Option Int
  | .int n => some n.toInt
  | .big n => some n
  | _ => none

/-- The nearest binary floating-point number; for a ratio, the quotient of the nearest ones to
numerator and denominator. -/
def toBinary64? : Number → Option Binary64
  | .int n => some (Binary64.ofInt n.toInt)
  | .big n => some (Binary64.ofInt n)
  | .ratio q => some ((Binary64.ofInt q.num).div (Binary64.ofInt q.den))
  | .float x => some x
  | .decimal d => d.toBinary64?

/-- Equality of numbers. Representations are told apart, floating-point numbers are compared as
numbers, decimals by integer and scale. -/
def same : Number → Number → Bool
  | .int m, .int n => m == n
  | .big m, .big n => m == n
  | .ratio p, .ratio q => p == q
  | .float x, .float y => x.same y
  | .decimal c, .decimal d => c == d
  | _, _ => false

instance : BEq Number := ⟨same⟩

/-- The text of a floating-point number; what is not finite has a symbolic spelling. -/
def floatText (x : Binary64) : String :=
  if x.isNaN then "##NaN"
  else if x.isInfinite then (if x.isNegative then "##-Inf" else "##Inf")
  else x.shortestText

/-- The texts that a number is written as, one after the other. -/
def parts : Number → List (Option String)
  | .int n => [some (toString n.toInt)]
  | .big n => [some (toString n), some "N"]
  | .ratio q => [some (toString q.num), some "/", some (toString q.den)]
  | .float x => [some (floatText x)]
  | .decimal d => d.parts ++ [some "M"]

/-- The text of a number, from which it can be read back. A decimal whose exponent overflows has
none. -/
def toText? (n : Number) : Option String :=
  Text.join? n.parts

end Number

end FormTree
