import FormTree.Text.Invisible

/-!
# Quoted texts

A text between double quotes, with quotes, backslashes, tabs and line ends escaped by one letter
and every character that is not shown as itself spelled out by its number. Two uses differ in how
they spell NUL: `spell` always writes `\0`; in program code a digit that follows would be taken for
part of an octal number, and `spellInCode` avoids that.
-/

namespace FormTree.Text

/-- A number in hexadecimal with at least `width` digits. -/
def hex (width : Nat) (n : Nat) : List Char :=
  let digits := Nat.toDigits 16 n
  List.replicate (width - digits.length) '0' ++ digits

/-- A number in hexadecimal with capital letters and at least `width` digits. -/
def hexCapital (width : Nat) (n : Nat) : List Char :=
  (hex width n).map Char.toUpper

/-- One character inside a quoted text. -/
def spell (c : Char) : List Char :=
  if c == '\x00' then ['\\', '0']
  else if c == '\t' then ['\\', 't']
  else if c == '\r' then ['\\', 'r']
  else if c == '\n' then ['\\', 'n']
  else if c == '"' then ['\\', '"']
  else if c == '\\' then ['\\', '\\']
  else if isInvisible c then ['\\', 'u', '\x7b'] ++ hex 1 c.toNat ++ ['\x7d']
  else [c]

/-- The characters of a quoted text in program code: as `spell` has them, but NUL before an octal
digit is written with two hexadecimal digits. -/
def spellInCode : List Char → List Char
  | [] => []
  | c :: rest =>
    if c == '\x00' && (rest.head?.any fun d => '0' ≤ d && d ≤ '7') then
      ['\\', 'x', '0', '0'] ++ spellInCode rest
    else spell c ++ spellInCode rest

/-- A text in quotes, as a diagnostic shows it. -/
def quote (s : String) : String :=
  String.ofList ('"' :: (s.toList.flatMap spell ++ ['"']))

/-- A text as a string literal of program code, spelled as literals that are made from texts are
documented to be. -/
def quoteInCode (s : String) : String :=
  String.ofList ('"' :: (spellInCode s.toList ++ ['"']))

end FormTree.Text
