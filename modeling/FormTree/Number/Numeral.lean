import FormTree.Text.CharClass

/-!
# Positional numerals

Numerals in a radix from 2 to 36, with the signs and separators that an integer may carry.
-/

namespace FormTree.Numeral

open Text

-- Powers are the core library's here, also below a library with another instance of them.
attribute [local instance (high)] instPowNat

/-- The number that digit values denote in the given radix, most significant first. -/
def ofDigits (radix : Nat) (digits : List Nat) : Nat :=
  digits.foldl (fun n d => n * radix + d) 0

/-- The number that a run of digits denotes; what is no digit counts as zero. -/
def value (radix : Nat) (cs : List Char) : Nat :=
  ofDigits radix (cs.map fun c => (digitValue? radix c).getD 0)

/-- Reads digits with an optional plus sign, as the parser of big integers documents it: the first
digit stands right after the sign, and underscores between or after digits are passed over. -/
def natural? (radix : Nat) (cs : List Char) : Option Nat :=
  let digits := match cs with
    | '+' :: rest => rest
    | _ => cs
  if digits.isEmpty || digits.head? == some '_' then none
  else ((digits.filter (· != '_')).mapM (digitValue? radix)).map (ofDigits radix)

/-- Reads an integer, as the parser of big integers documents it: a natural number with an optional
minus sign. One sign at most is allowed. -/
def integer? (radix : Nat) (cs : List Char) : Option Int :=
  match cs with
  | '-' :: '+' :: _ => none
  | '-' :: rest => (natural? radix rest).map fun n => -(n : Int)
  | _ => (natural? radix cs).map fun n => (n : Int)

/-- The least and greatest integers of 64 bits. -/
def fitsInt64 (n : Int) : Bool :=
  -(2 ^ (63 : Nat)) ≤ n && n < 2 ^ (63 : Nat)

/-- What is stored in 64 bits fits. -/
theorem fitsInt64_toInt (n : Int64) : fitsInt64 n.toInt = true :=
  Bool.and_eq_true_iff.2 ⟨decide_eq_true n.le_toInt, decide_eq_true n.toInt_lt⟩

/-- What fits is not changed by being stored in 64 bits. -/
theorem toInt_ofInt_of_fitsInt64 {n : Int} (h : fitsInt64 n = true) :
    (Int64.ofInt n).toInt = n := by
  obtain ⟨hle, hlt⟩ := Bool.and_eq_true_iff.1 h
  exact Int64.toInt_ofInt_of_le (of_decide_eq_true hle) (of_decide_eq_true hlt)

/-- Reads an exponent: decimal digits with an optional sign, in the range of 64 bits. -/
def exponent? (cs : List Char) : Option Int :=
  let (negative, digits) := match cs with
    | '-' :: rest => (true, rest)
    | '+' :: rest => (false, rest)
    | _ => (false, cs)
  if isNumeral 10 digits then
    let n : Int := value 10 digits
    some (if negative then -n else n) |>.filter fitsInt64
  else none

end FormTree.Numeral
