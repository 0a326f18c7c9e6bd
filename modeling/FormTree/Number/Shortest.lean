import FormTree.Number.Binary64

/-!
# Shortest decimal text of a binary number

The decimal with the fewest digits that reads back as the same number, and of those the nearest one,
with an even last digit when two are equally near. This is what printers of the shortest text of a
floating-point number document that they print; here it is computed in the plainest way. A decimal
reads back as a number when it lies in the number's **rounding interval**, whose ends belong to it
just when the significand is even.

The search goes over decimal grids from coarse to fine. The digits found are laid out positionally
while the point is from four places before the first digit to sixteen after it, and with an exponent
otherwise.
-/

namespace FormTree.Binary64

-- Powers are the core library's here, also below a library with another instance of them.
attribute [local instance (high)] instPowNat

/-- The rounding interval of a number: its ends and the number itself over one denominator. -/
structure Interval where
  low : Nat
  value : Nat
  high : Nat
  den : Nat
  closed : Bool

/-- The rounding interval of a finite positive number. Below a power of two the gap is half as wide,
unless that number has the least exponent. -/
def interval (x : Binary64) : Interval :=
  let m := x.significand
  let below := if m == 2 ^ (52 : Nat) && 2 ^ (53 : Nat) ≤ x.code then 1 else 2
  let e := x.exponent - 2
  let scale := if 0 ≤ e then 2 ^ e.toNat else 1
  { low := (4 * m - below) * scale
    value := 4 * m * scale
    high := (4 * m + 2) * scale
    den := if 0 ≤ e then 1 else 2 ^ (-e).toNat
    closed := m % 2 == 0 }

/-- The least `k` with `num / den < 10 ^ k`, for a positive fraction. -/
def decimalPlace (num den : Nat) : Int :=
  if den ≤ num then decimalLength (num / den)
  else 1 - (decimalLength ((den - 1) / num) : Int)

/-- Whether the grid point `c / step` is in the interval, whose ends are `low / step` and
`high / step`. -/
def Interval.holds (i : Interval) (c : Nat) : Bool :=
  if i.closed then i.low ≤ c && c ≤ i.high else i.low < c && c < i.high

/-- The interval with its numbers and denominator scaled so that the points of the grid of step
`10 ^ g` are the multiples of the denominator. -/
def Interval.onGrid (i : Interval) (g : Int) : Interval :=
  if 0 ≤ g then { i with den := i.den * 10 ^ g.toNat }
  else
    let s := 10 ^ (-g).toNat
    { i with low := i.low * s, value := i.value * s, high := i.high * s }

/-- The grid point in the interval that is nearest to the number, as a count of steps. -/
def Interval.nearestPoint? (i : Interval) : Option Nat :=
  let c := i.value / i.den
  let r := i.value % i.den
  let below := i.holds (c * i.den)
  let above := i.holds ((c + 1) * i.den)
  if below && above then
    some (if 2 * r < i.den || (2 * r == i.den && c % 2 == 0) then c else c + 1)
  else if below then some c
  else if above then some (c + 1)
  else none

/-- The first grid point found with at most `more` digits from the grid of step `10 ^ g` on, as its
digits and exponent. -/
def Interval.search (i : Interval) : Nat → Int → Nat × Int
  | 0, g => let j := i.onGrid g; (j.value / j.den, g)
  | more + 1, g =>
    match (i.onGrid g).nearestPoint? with
    | some c => (c, g)
    | none => i.search more (g - 1)

/-- The digits `d` and the exponent `e` of the shortest decimal `d * 10 ^ e` for a finite positive
number. Seventeen digits are always enough. -/
def shortest (x : Binary64) : Nat × Int :=
  let i := x.interval
  let (d, e) := i.search 17 (decimalPlace i.value i.den - 1)
  if d % 10 = 0 then (d / 10, e + 1) else (d, e)

/-- Digits with a decimal exponent, laid out. The point is positional from four places before the
first digit to sixteen after it, with at least one digit on each side. -/
def layOut (digits : List Char) (e : Int) : List Char :=
  let place := digits.length + e
  if 0 ≤ e && place ≤ 16 then digits ++ List.replicate e.toNat '0' ++ ['.', '0']
  else if 0 < place && place ≤ 16 then
    digits.take place.toNat ++ '.' :: digits.drop place.toNat
  else if -5 < place && place ≤ 0 then
    '0' :: '.' :: (List.replicate (-place).toNat '0' ++ digits)
  else
    let head := match digits with
      | [] => []
      | [d] => [d]
      | d :: ds => d :: '.' :: ds
    head ++ 'e' :: (toString (place - 1)).toList

/-- The shortest text of a finite number, in the digits and the layout that the printer of shortest
texts documents. -/
def shortestText (x : Binary64) : String :=
  let text :=
    if x.code = 0 then ['0', '.', '0']
    else
      let (d, e) := x.shortest
      layOut (Nat.toDigits 10 d) e
  String.ofList (if x.isNegative then '-' :: text else text)

end FormTree.Binary64
