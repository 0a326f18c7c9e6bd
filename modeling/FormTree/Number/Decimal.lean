import FormTree.Number.Numeral
import FormTree.Number.Binary64
import FormTree.Text.Parts

/-!
# Exact decimals

A decimal is an integer with a scale, so that `2.50` and `2.5` differ. Its text is positional when
the scale is positive and has one digit before the point and an exponent when it is negative;
reading the text gives the same integer and scale back. Scales and exponents have 64 bits. Where the
exponent in the text of a decimal would need more there is no text: whoever writes it is broken off
between the sign and the digits. An operation that is broken off gives nothing here, written `none`.
-/

namespace FormTree

/-- The decimal `unscaled * 10 ^ (-scale)`. -/
structure Decimal where
  unscaled : Int
  scale : Int
  deriving DecidableEq, Repr, Inhabited

namespace Decimal

/-- Whether `c` separates a mantissa from its exponent. -/
def isExponentMark (c : Char) : Bool := c == 'e' || c == 'E'

/-- What stands before the first separator, and what stands after it. -/
def splitFirst (isSeparator : Char → Bool) (cs : List Char) : List Char × Option (List Char) :=
  match cs.span (!isSeparator ·) with
  | (before, []) => (before, none)
  | (before, _ :: after) => (before, some after)

/-- The exponent after the mark of an exponent, if there is one. -/
def exponent? : Option (List Char) → Option Int
  | none => some 0
  | some cs => Numeral.exponent? cs

/-- The decimal with the digits of an integer, some of them after the point, and an exponent. The
scale counts the digits after the point less the exponent and has to be in the range of 64 bits. -/
def ofParts? (whole fraction : List Char) (exponent : Int) : Option Decimal :=
  (Numeral.integer? 10 (whole ++ fraction)).bind fun unscaled =>
    let scale : Int := fraction.length - exponent
    if Numeral.fitsInt64 scale then some ⟨unscaled, scale⟩ else none

/-- Reads a decimal: a mantissa whose digits, without the point, are an integer, and an exponent. -/
def parse? (text : String) : Option Decimal :=
  let (mantissa, exponentText) := splitFirst isExponentMark text.toList
  let (whole, fraction) := splitFirst (· == '.') mantissa
  (exponent? exponentText).bind (ofParts? whole (fraction.getD []))

/-- The exponent that the text of a decimal has if its scale is negative: the first digit stands
before the point. -/
def textExponent (d : Decimal) : Int :=
  ((Nat.toDigits 10 d.unscaled.natAbs).length : Int) - 1 - d.scale

/-- Whether the text of a decimal has an exponent that needs more than 64 bits. -/
def overflows (d : Decimal) : Bool :=
  d.scale < 0 && !Numeral.fitsInt64 d.textExponent

/-- The sign of a decimal. -/
def signParts (d : Decimal) : List String :=
  if d.unscaled < 0 then ["-"] else []

/-- The texts of a decimal after its sign: its digits with what divides them, and its exponent, of
whatever size that is. -/
def magnitudeParts (d : Decimal) : List String :=
  let digits := Nat.toDigits 10 d.unscaled.natAbs
  if d.scale = 0 then [String.ofList digits]
  else if d.scale < 0 then
    let fraction := digits.drop 1
    String.ofList (digits.take 1) ::
      ((if fraction.isEmpty then [] else [".", String.ofList fraction]) ++
        ["E+", toString d.textExponent])
  else
    let places := d.scale.toNat
    if places < digits.length then
      [String.ofList (digits.take (digits.length - places)), ".",
        String.ofList (digits.drop (digits.length - places))]
    else "0." :: (List.replicate (places - digits.length) "0" ++ [String.ofList digits])

/-- The texts that a decimal is written as, one after the other. The exponent is computed behind the
sign, which is where writing is broken off if it overflows. -/
def parts (d : Decimal) : List (Option String) :=
  d.signParts.map some ++ if d.overflows then [none] else d.magnitudeParts.map some

/-- The text of a decimal, if its exponent does not overflow. -/
def toText? (d : Decimal) : Option String :=
  Text.join? d.parts

/-- The binary number nearest to a decimal. It is computed from the exponent that is opposite to the
scale, if that has 64 bits. -/
def toBinary64? (d : Decimal) : Option Binary64 :=
  if Numeral.fitsInt64 (-d.scale) then
    some (Binary64.ofDecimal (decide (d.unscaled < 0)) d.unscaled.natAbs (-d.scale))
  else none

end Decimal

end FormTree
