import FormTree.Form.Basic
import FormTree.Text.CharClass
import FormTree.Text.DecimalDigit

/-!
# Data readers

A data reader gives the form that a tagged literal stands for. Readers are registered for tags;
after them come default readers, and after those a fallback for all other tags. The defaults check
the strings of instants and UUIDs and keep the literal.
-/

namespace FormTree

/-- A data reader: a form for the tagged one, or a refusal with its reason. -/
abbrev DataReader := Form → Except String Form

/-- The registries of data readers; newer entries come first and hide older ones. -/
structure DataReaders where
  readers : List (Symbol × DataReader)
  defaults : List (Symbol × DataReader)
  fallback : Option (Symbol → DataReader)

namespace DataReaders

/-- No readers at all. -/
def empty : DataReaders := ⟨[], [], none⟩

/-- Registers a reader for a tag. -/
def withReader (r : DataReaders) (tag : Symbol) (reader : DataReader) : DataReaders :=
  { r with readers := (tag, reader) :: r.readers }

/-- Installs the fallback. -/
def withFallback (r : DataReaders) (fallback : Symbol → DataReader) : DataReaders :=
  { r with fallback := some fallback }

/-- Runs the first reader that handles a tag, if there is one. -/
def read? (r : DataReaders) (tag : Symbol) (f : Form) : Option (Except String Form) :=
  match r.readers.lookup tag with
  | some reader => some (reader f)
  | none =>
    match r.defaults.lookup tag with
    | some reader => some (reader f)
    | none => r.fallback.map fun fallback => fallback tag f

end DataReaders

/-! ### Instants -/

namespace Timestamp

/-- What is left after `n` decimal digits. -/
def afterDigits? : Nat → List Char → Option (List Char)
  | 0, cs => some cs
  | _ + 1, [] => none
  | n + 1, c :: cs => if Text.isDecimalDigit c then afterDigits? n cs else none

/-- What is left after `c` and two digits. -/
def afterPart? (c : Char) : List Char → Option (List Char)
  | d :: cs => if d == c then afterDigits? 2 cs else none
  | [] => none

/-- What is left after an optional fraction of a second. -/
def afterFraction? : List Char → Option (List Char)
  | '.' :: cs =>
    match cs.span Text.isDecimalDigit with
    | ([], _) => none
    | (_, rest) => some rest
  | cs => some cs

/-- What is left after the optional minutes and, after them, seconds of a time. -/
def afterMinutes? (cs : List Char) : Option (List Char) :=
  if cs.head? == some ':' then do
    let cs ← afterPart? ':' cs
    if cs.head? == some ':' then afterFraction? (← afterPart? ':' cs) else some cs
  else some cs

/-- Whether a text is an optional offset from universal time: `Z`, or a sign with hours and
minutes. -/
def isOffset : List Char → Bool
  | [] => true
  | ['Z'] => true
  | c :: cs =>
    (c == '-' || c == '+') &&
      ((afterDigits? 2 cs).bind (afterPart? ':')).any List.isEmpty

/-- Whether a text is an instant: a year of four digits and, each only after the one before it,
month, day, hours with an optional offset, minutes, seconds and a fraction. -/
def isValid (text : String) : Bool :=
  match afterDigits? 4 text.toList with
  | none => false
  | some [] => true
  | some month =>
    match afterPart? '-' month with
    | none => false
    | some [] => true
    | some day =>
      match afterPart? '-' day with
      | none => false
      | some [] => true
      | some time => ((afterPart? 'T' time).bind afterMinutes?).any isOffset

end Timestamp

/-! ### UUIDs -/

namespace Uuid

/-- Whether a text is groups of hexadecimal digits of the given lengths, with hyphens between. -/
def isGroups : List Nat → List Char → Bool
  | [], cs => cs.isEmpty
  | n :: lengths, cs =>
    (cs.take n).length == n && (cs.take n).all (Text.isDigitIn 16) &&
      match lengths, cs.drop n with
      | [], rest => rest.isEmpty
      | _ :: _, '-' :: rest => isGroups lengths rest
      | _ :: _, _ => false

/-- Whether a text is a UUID. -/
def isValid (text : String) : Bool :=
  isGroups [8, 4, 4, 4, 12] text.toList

end Uuid

/-- A reader that keeps a literal whose string is valid and refuses any other. -/
def DataReader.checked (tag what : String) (valid : String → Bool) : DataReader
  | .string s =>
    if valid s then .ok (.tagged (.simple tag) (.string s))
    else .error ("Unrecognized " ++ what ++ ": " ++ s)
  | _ => .error (what ++ " literal expects a string")

/-- The registries with the default readers. -/
def DataReaders.standard : DataReaders :=
  { DataReaders.empty with
    defaults :=
      [(.simple "inst", .checked "inst" "timestamp" Timestamp.isValid),
       (.simple "uuid", .checked "uuid" "UUID" Uuid.isValid)] }

end FormTree
