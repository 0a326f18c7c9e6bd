import FormTree.Number.Literal
import FormTree.Reader.Trigger
import FormTree.Source.Progress
import FormTree.Text.CharName

/-!
# Scanning literals

Tokens, numbers, lines, strings, patterns and character literals. Every function starts right after
the character that began the literal and leaves the cursor right after its end; what ends a token or
a number is left for the next form.
-/

namespace FormTree.Scan

open Cursor Text

/-- The rest of a token that began with `first`. -/
def token (first : Char) : Scan String := do
  let rest ← takeUntil endsToken
  return String.ofList (first :: rest)

/-- The number that began with `first`. -/
def number (first : Char) : Scan Number := do
  let rest ← takeUntil endsNumber
  let text := String.ofList (first :: rest)
  match Number.ofToken? text with
  | some n => return n
  | none => throw (.invalidNumber text)

/-- Whether `c` ends a line. -/
def endsLine (c : Char) : Bool := c == '\n' || c == '\r'

/-- The rest of a line. The line feed or carriage return that ends it is passed over. -/
def line : Scan String := do
  let cs ← takeThrough endsLine
  return String.ofList cs

/-! ### Strings -/

/-- The next character inside a string. -/
def inString : Scan Char := do
  match ← next with
  | some c => return c
  | none => throw .endInString

/-- The refusal of a character that should be a digit. -/
def invalidDigit (c : Char) : Cause :=
  .unsupportedEscape ("invalid digit: " ++ c.toString)

/-- Up to `more` further digits of a number, and how many there were. A blank or a trigger ends
them, any other character has to be a digit. -/
def digits (radix : Nat) : (more count code : Nat) → Scan (Nat × Nat)
  | 0, count, code => return (count, code)
  | more + 1, count, code => do
    match ← next with
    | none => return (count, code)
    | some c =>
      if endsNumber c then
        unread c
        return (count, code)
      else
        match digitValue? radix c with
        | some d => digits radix more (count + 1) (code * radix + d)
        | none => throw (invalidDigit c)

/-- A number of up to `length` digits that began with `first`, and how many digits it has. -/
def digitsFrom (first : Char) (radix length : Nat) : Scan (Nat × Nat) := do
  match digitValue? radix first with
  | some d => digits radix (length - 1) 1 d
  | none => throw (invalidDigit first)

/-- The code unit of an escape with four hexadecimal digits. -/
def codeUnit : Scan Nat := do
  let first ← inString
  let (count, code) ← digitsFrom first 16 4
  if count = 4 then return code
  else
    throw (.unsupportedEscape
      ("invalid character length: " ++ toString count ++ ", should be: 4"))

/-- The character with code point `n`. -/
def scalar? (n : Nat) : Option Char :=
  if h : n.isValidChar then some (Char.ofNatAux n h) else none

/-- The refusal of a code unit that is no character. -/
def loneUnit (unit : Nat) : Cause :=
  .unsupportedEscape (String.ofList ('\\' :: 'u' :: hex 4 unit))

/-- The low surrogate after the high surrogate `high`, in an escape of its own. -/
def lowUnit (high : Nat) : Scan Nat := do
  let backslash ← inString
  if backslash == '\\' then
    let letter ← inString
    if letter == 'u' then
      let low ← codeUnit
      if 0xDC00 ≤ low && low ≤ 0xDFFF then return low else throw (loneUnit high)
    else throw (loneUnit high)
  else throw (loneUnit high)

/-- The character with code point `n`, or a refusal of the code unit it came from. -/
def scalarFrom (unit n : Nat) : Scan Char :=
  match scalar? n with
  | some c => return c
  | none => throw (loneUnit unit)

/-- The character of an escape with hexadecimal digits; a high surrogate needs a low one after
it. -/
def unicodeEscape : Scan Char := do
  let high ← codeUnit
  if 0xD800 ≤ high && high ≤ 0xDBFF then
    let low ← lowUnit high
    scalarFrom high (0x10000 + (high - 0xD800) * 0x400 + (low - 0xDC00))
  else scalarFrom high high

/-- The refusal of an octal number above one byte. -/
def octalRange : String := "octal escape sequence must be in range [0, 377]"

/-- The character of an escape, after its backslash. -/
def escape : Scan Char := do
  let c ← inString
  match c with
  | 't' => return '\t'
  | 'r' => return '\r'
  | 'n' => return '\n'
  | '\\' => return '\\'
  | '"' => return '"'
  | 'b' => return '\x08'
  | 'f' => return '\x0c'
  | 'u' => unicodeEscape
  | _ =>
    if isDigit c then
      let (_, code) ← digitsFrom c 8 3
      if code ≤ 0xFF then return Char.ofNat code
      else throw (.unsupportedEscape octalRange)
    else throw (.unsupportedEscape (String.ofList ['\\', c]))

/-! ### What scanning leaves -/

theorem shrinks_inString : Shrinks Cursor.size inString :=
  .bind shrinks_next fun c => by cases c <;> first | exact .pure _ | exact .throw _

/-- A character that ends a code was delivered before it is handed back. -/
theorem shrinks_digits (radix more count code : Nat) :
    Shrinks Cursor.size (digits radix more count code) := by
  induction more generalizing count code with
  | zero => exact .pure _
  | succ more ih =>
    constructor
    intro k
    unfold digits
    rw [stateOf_bind]
    cases h : next k with
    | error e k₁ => exact shrinks_next.le_of_error h
    | ok c k₁ =>
      cases c with
      | none => exact shrinks_next.le_of_ok h
      | some c =>
        dsimp only
        split
        · exact size_handBack_le_of_next h
        · refine Nat.le_trans ?_ (shrinks_next.le_of_ok h)
          cases digitValue? radix c with
          | none => exact Nat.le_refl _
          | some d => exact (ih _ _).le k₁

theorem shrinks_digitsFrom (first : Char) (radix length : Nat) :
    Shrinks Cursor.size (digitsFrom first radix length) := by
  unfold digitsFrom
  split
  · exact shrinks_digits _ _ _ _
  · exact .throw _

theorem shrinks_codeUnit : Shrinks Cursor.size codeUnit :=
  .bind shrinks_inString fun _ =>
    .bind (shrinks_digitsFrom _ _ _) fun _ => .ite (.pure _) (.throw _)

theorem shrinks_lowUnit (high : Nat) : Shrinks Cursor.size (lowUnit high) :=
  .bind shrinks_inString fun _ =>
    .ite (.bind shrinks_inString fun _ =>
      .ite (.bind shrinks_codeUnit fun _ => .ite (.pure _) (.throw _)) (.throw _)) (.throw _)

theorem shrinks_scalarFrom (unit n : Nat) : Shrinks Cursor.size (scalarFrom unit n) := by
  unfold scalarFrom
  split
  · exact .pure _
  · exact .throw _

theorem shrinks_unicodeEscape : Shrinks Cursor.size unicodeEscape :=
  .bind shrinks_codeUnit fun _ =>
    .ite (.bind (shrinks_lowUnit _) fun _ => shrinks_scalarFrom _ _) (shrinks_scalarFrom _ _)

theorem shrinks_escape : Shrinks Cursor.size escape := by
  refine .bind shrinks_inString fun c => ?_
  split
  all_goals first
    | exact .pure _
    | exact shrinks_unicodeEscape
    | exact .ite (.bind (shrinks_digitsFrom _ _ _) fun _ => .ite (.pure _) (.throw _)) (.throw _)

end FormTree.Scan
