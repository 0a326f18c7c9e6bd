/-!
# Binary floating-point numbers of 64 bits

A number is its bits. The bits below the sign, read as a natural number, are its **code**: codes are
in the order of the magnitudes, so that rounding a fraction means finding the code next to it. All
arithmetic here is exact until its one rounding, which is to the nearest number, and to the even
code when two are equally near.
-/

namespace FormTree

-- Powers are the core library's here, also below a library with another instance of them.
attribute [local instance (high)] instPowNat

/-- A binary floating-point number, by its bits. -/
structure Binary64 where
  bits : UInt64
  deriving DecidableEq, Repr, Inhabited

namespace Binary64

/-- The code of infinity; greater codes are no numbers. -/
def infinityCode : Nat := 0x7FF * 2 ^ (52 : Nat)

/-- The bits below the sign. -/
def code (x : Binary64) : Nat := x.bits.toNat % 2 ^ (63 : Nat)

/-- Whether the sign bit is set. -/
def isNegative (x : Binary64) : Bool := 2 ^ (63 : Nat) ≤ x.bits.toNat

/-- Whether `x` is no number. -/
def isNaN (x : Binary64) : Bool := infinityCode < x.code

/-- Whether `x` is an infinity of either sign. -/
def isInfinite (x : Binary64) : Bool := x.code == infinityCode

/-- The number with the given sign and code. -/
def ofCode (negative : Bool) (code : Nat) : Binary64 :=
  ⟨UInt64.ofNat (if negative then 2 ^ (63 : Nat) + code else code)⟩

/-- An infinity. -/
def infinity (negative : Bool) : Binary64 := ofCode negative infinityCode

/-- The value that is no number. -/
def nan : Binary64 := ofCode false (infinityCode + 2 ^ (51 : Nat))

/-- The significand of a finite number, a natural number below `2 ^ 53`. -/
def significand (x : Binary64) : Nat :=
  if x.code < 2 ^ (52 : Nat) then x.code else 2 ^ (52 : Nat) + x.code % 2 ^ (52 : Nat)

/-- The binary exponent of a finite number, whose magnitude is
`x.significand * 2 ^ x.exponent`. -/
def exponent (x : Binary64) : Int :=
  (max (x.code / 2 ^ (52 : Nat)) 1 : Nat) - 1075

/-- The quotient rounded to the nearest integer, a half to the even neighbour. -/
def roundDiv (num den : Nat) : Nat :=
  let q := num / den
  let r := num % den
  if den < 2 * r || (den == 2 * r && q % 2 == 1) then q + 1 else q

/-- The greatest `e` with `2 ^ e ≤ num / den`, for a positive fraction. -/
def floorLog (num den : Nat) : Int :=
  let e : Int := (Nat.log2 num : Int) - (Nat.log2 den : Int)
  let reached := if 0 ≤ e then den * 2 ^ e.toNat ≤ num else den ≤ num * 2 ^ (-e).toNat
  if reached then e else e - 1

/-- The code nearest to a fraction. Its last place is worth `2 ^ e`, with 53 binary digits above it
unless that would be below the least exponent; rounding up to the next power of two lands on the
right code by itself, and past the greatest finite code it is infinity. -/
def nearestCode (num den : Nat) : Nat :=
  if num = 0 then 0
  else
    let e := max (floorLog num den - 52) (-1074)
    let m := if 0 ≤ e then roundDiv num (den * 2 ^ e.toNat) else roundDiv (num * 2 ^ (-e).toNat) den
    min ((e + 1074).toNat * 2 ^ (52 : Nat) + m) infinityCode

/-- The number nearest to a fraction with a sign. -/
def nearest (negative : Bool) (num den : Nat) : Binary64 :=
  ofCode negative (nearestCode num den)

/-- The number nearest to an integer. -/
def ofInt (n : Int) : Binary64 :=
  nearest (decide (n < 0)) n.natAbs 1

/-- The number of decimal digits of `n`; zero has none. -/
def decimalLength (n : Nat) : Nat :=
  if n = 0 then 0 else (Nat.toDigits 10 n).length

/-- The number nearest to `digits * 10 ^ exponent` with a sign. A magnitude of `10 ^ 310` or more is
infinite and one below `10 ^ (-330)` is zero, which spares the powers for those. -/
def ofDecimal (negative : Bool) (digits : Nat) (exponent : Int) : Binary64 :=
  let place := exponent + decimalLength digits
  if digits = 0 || place < -330 then ofCode negative 0
  else if 310 < place then infinity negative
  else if 0 ≤ exponent then nearest negative (digits * 10 ^ exponent.toNat) 1
  else nearest negative digits (10 ^ (-exponent).toNat)

/-- The quotient of two numbers, rounded once. -/
def div (x y : Binary64) : Binary64 :=
  let negative := x.isNegative != y.isNegative
  if x.isNaN || y.isNaN then nan
  else if x.isInfinite then (if y.isInfinite then nan else infinity negative)
  else if y.isInfinite then ofCode negative 0
  else if y.code = 0 then (if x.code = 0 then nan else infinity negative)
  else
    let e := x.exponent - y.exponent
    if 0 ≤ e then nearest negative (x.significand * 2 ^ e.toNat) y.significand
    else nearest negative x.significand (y.significand * 2 ^ (-e).toNat)

/-- The number that the bits of a 32-bit floating-point number denote. -/
def ofBinary32 (bits : UInt32) : Binary64 :=
  let n := bits.toNat
  let negative := decide (2 ^ (31 : Nat) ≤ n)
  let e := n / 2 ^ (23 : Nat) % 2 ^ (8 : Nat)
  let fraction := n % 2 ^ (23 : Nat)
  if e = 0xFF then (if fraction = 0 then infinity negative else nan)
  else if e = 0 then nearest negative fraction (2 ^ (149 : Nat))
  else if 150 ≤ e then nearest negative ((2 ^ (23 : Nat) + fraction) * 2 ^ (e - 150)) 1
  else nearest negative (2 ^ (23 : Nat) + fraction) (2 ^ (150 - e))

/-- Equality of numbers: what is no number equals nothing, and the two zeros are equal. -/
def same (x y : Binary64) : Bool :=
  !x.isNaN && !y.isNaN && (x.bits == y.bits || (x.code == 0 && y.code == 0))

instance : BEq Binary64 := ⟨same⟩

end Binary64

end FormTree
