/-!
# Classes of characters

The character classes that reading and printing rest on. White space is the Unicode property;
a **blank** is what separates forms, which leaves out the spaces that do not break a line and
takes in four more controls. Digits are the ASCII digits and letters, in either case.
-/

namespace FormTree.Text

/-- White space, the Unicode property `White_Space`. -/
def isWhiteSpace (c : Char) : Bool :=
  let n := c.toNat
  (0x09 ≤ n && n ≤ 0x0D) || n == 0x20 || n == 0x85 || n == 0xA0 || n == 0x1680 ||
    (0x2000 ≤ n && n ≤ 0x200A) || n == 0x2028 || n == 0x2029 || n == 0x202F || n == 0x205F ||
    n == 0x3000

/-- A control character, the general category `Cc`. -/
def isControl (c : Char) : Bool :=
  let n := c.toNat
  n ≤ 0x1F || (0x7F ≤ n && n ≤ 0x9F)

/-- A **blank** separates forms: white space other than the next-line control and the three
spaces that do not break a line, and the four information separators. A comma is no blank. -/
def isBlank (c : Char) : Bool :=
  let n := c.toNat
  (0x1C ≤ n && n ≤ 0x1F) ||
    (isWhiteSpace c && !(n == 0x85 || n == 0xA0 || n == 0x2007 || n == 0x202F))

/-- A decimal digit of ASCII. -/
def isDigit (c : Char) : Bool :=
  '0' ≤ c && c ≤ '9'

/-- The value of an ASCII digit or letter as a digit, `a` and `A` standing for ten. -/
def alphanumericValue? (c : Char) : Option Nat :=
  if '0' ≤ c && c ≤ '9' then some (c.toNat - '0'.toNat)
  else if 'a' ≤ c && c ≤ 'z' then some (c.toNat - 'a'.toNat + 10)
  else if 'A' ≤ c && c ≤ 'Z' then some (c.toNat - 'A'.toNat + 10)
  else none

/-- The value of `c` as a digit in the given radix, if it is one. -/
def digitValue? (radix : Nat) (c : Char) : Option Nat :=
  (alphanumericValue? c).filter (· < radix)

/-- Whether `c` is a digit in the given radix. -/
def isDigitIn (radix : Nat) (c : Char) : Bool :=
  (digitValue? radix c).isSome

/-- Whether `cs` is a non-empty run of digits in the given radix. -/
def isNumeral (radix : Nat) (cs : List Char) : Bool :=
  !cs.isEmpty && cs.all (isDigitIn radix)

end FormTree.Text
