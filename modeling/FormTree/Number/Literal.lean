import FormTree.Number.Basic

/-!
# Number literals

The grammar of number tokens. A token is tried as an integer, then as a floating-point number or
decimal, then as a ratio. A token shaped like an integer that denotes none, such as `09` or `2r3`,
is refused without trying the others.
-/

namespace FormTree.Number

open Text

/-- An optional sign, and what follows it. -/
def splitSign (cs : List Char) : Bool × List Char :=
  match cs with
  | '-' :: rest => (true, rest)
  | '+' :: rest => (false, rest)
  | _ => (false, cs)

/-- What stands before a last character `c`, and whether there is one. -/
def splitSuffix (c : Char) (cs : List Char) : List Char × Bool :=
  if cs.getLast? == some c then (cs.dropLast, true) else (cs, false)

/-- An integer with an explicit radix of one or two digits, as in `16rFF`. The digits run to the end
of the token. The outer option tells whether the token has this shape. -/
def radixInteger? (negate : Bool) (cs : List Char) : Option (Option Number) :=
  match Decimal.splitFirst (fun c => c == 'r' || c == 'R') cs with
  | (_, none) => none
  | (radix, some digits) =>
    if radix.length ≤ 2 && isNumeral 10 radix && radix.head? != some '0' && isNumeral 36 digits then
      some (ofDigits? (String.ofList digits) (Numeral.value 10 radix) negate false)
    else none

/-- The digits and the radix of an integer without explicit radix. The outer option tells whether
the token has the shape of an integer; `09` has, but denotes none. -/
def plainInteger? (body : List Char) : Option (Option (List Char × Nat)) :=
  match body with
  | ['0'] => some (some (['0'], 10))
  | '0' :: rest =>
    let hexadecimal := match rest with
      | x :: digits => if (x == 'x' || x == 'X') && isNumeral 16 digits then some digits else none
      | [] => none
    match hexadecimal with
    | some digits => some (some (digits, 16))
    | none =>
      if isNumeral 8 rest then some (some (rest, 8))
      else if isNumeral 10 rest then some none
      else none
  | _ => if isNumeral 10 body then some (some (body, 10)) else none

/-- An integer token. The outer option tells whether the token has the shape of an integer. -/
def integerToken? (cs : List Char) : Option (Option Number) :=
  let (negate, rest) := splitSign cs
  match radixInteger? negate rest with
  | some n => some n
  | none =>
    let (body, forceBig) := splitSuffix 'N' rest
    match plainInteger? body with
    | none => none
    | some none => some none
    | some (some (digits, radix)) =>
      some (ofDigits? (String.ofList digits) radix negate forceBig)

/-- The exponent of a floating-point token, if there is one. -/
def floatExponent? : Option (List Char) → Option Int
  | none => some 0
  | some cs =>
    let (negative, digits) := splitSign cs
    let n : Int := Numeral.value 10 digits
    if isNumeral 10 digits then some (if negative then -n else n) else none

/-- A floating-point token, or a decimal with the suffix `M`. -/
def floatToken? (cs : List Char) : Option Number :=
  let (text, exact) := splitSuffix 'M' cs
  let (negative, unsigned) := splitSign text
  let (mantissa, exponentText) := Decimal.splitFirst Decimal.isExponentMark unsigned
  let (whole, fraction) := Decimal.splitFirst (· == '.') mantissa
  let fraction := fraction.getD []
  if isNumeral 10 whole && fraction.all isDigit then
    (floatExponent? exponentText).bind fun exponent =>
      if exact then (Decimal.parse? (String.ofList text)).map .decimal
      else
        some (.float (Binary64.ofDecimal negative (Numeral.value 10 (whole ++ fraction))
          (exponent - fraction.length)))
  else none

/-- A ratio token. -/
def ratioToken? (cs : List Char) : Option Number :=
  let (negate, unsigned) := splitSign cs
  match Decimal.splitFirst (· == '/') unsigned with
  | (_, none) => none
  | (num, some den) =>
    if isNumeral 10 num && isNumeral 10 den then
      let n : Int := Numeral.value 10 num
      ofRatio? (if negate then -n else n) (Numeral.value 10 den)
    else none

/-- The number that a token denotes. -/
def ofToken? (token : String) : Option Number :=
  let cs := token.toList
  match integerToken? cs with
  | some n => n
  | none => floatToken? cs <|> ratioToken? cs

end FormTree.Number
