import FormTree.Form.Basic
import FormTree.Text.CharClass
import FormTree.Text.CharName
import FormTree.Text.Quoted

/-!
# Pieces of printed text

A form is printed as a sequence of pieces: literals, punctuation, delimiters, separators, and the
fragments and escapes of strings. A piece says what is written; `Piece.parts` is how it is written
by default, and a printer with a style of its own maps pieces to texts in another way.
-/

namespace FormTree

open Text

/-- The bracketed sequences. -/
inductive Delimiter where
  | list
  | vector
  | map
  | set
  | conditional (splicing : Bool)
  deriving DecidableEq, Repr, Inhabited

/-- The text that opens a sequence. -/
def Delimiter.opening : Delimiter → String
  | .list => "("
  | .vector => "["
  | .map => "\x7b"
  | .set => "#\x7b"
  | .conditional false => "#?("
  | .conditional true => "#?@("

/-- The text that closes a sequence. -/
def Delimiter.closing : Delimiter → String
  | .list | .conditional _ => ")"
  | .vector => "]"
  | .map | .set => "\x7d"

/-- What goes between two neighbours. -/
inductive Separator where
  | none
  | space
  | newline
  deriving DecidableEq, Repr, Inhabited

/-- An escape in a string. -/
inductive Escape where
  | quote
  | backslash
  | backspace
  | formFeed
  | lineFeed
  | carriageReturn
  | tab
  /-- any other control character of ASCII, by its code -/
  | control (code : Nat)
  deriving DecidableEq, Repr, Inhabited

namespace Escape

/-- How a character is escaped in a string, if it has to be: quotes, backslashes and the control
characters of ASCII. -/
def ofChar? (c : Char) : Option Escape :=
  if c == '"' then some .quote
  else if c == '\\' then some .backslash
  else if c == '\x08' then some .backspace
  else if c == '\x0c' then some .formFeed
  else if c == '\n' then some .lineFeed
  else if c == '\r' then some .carriageReturn
  else if c == '\t' then some .tab
  else if c.toNat < 0x20 || c.toNat == 0x7F then some (.control c.toNat)
  else none

/-- How a byte is escaped in a string, if it has to be: as the character with its code. -/
def ofByte? (b : UInt8) : Option Escape :=
  ofChar? (Char.ofUInt8 b)

/-- The text of an escape. -/
def text : Escape → String
  | .quote => "\\\""
  | .backslash => "\\\\"
  | .backspace => "\\b"
  | .formFeed => "\\f"
  | .lineFeed => "\\n"
  | .carriageReturn => "\\r"
  | .tab => "\\t"
  | .control code => String.ofList ('\\' :: 'u' :: hexCapital 4 code)

end Escape

/-- What a printer writes in one go. -/
inductive Piece where
  | nil
  | bool (value : Bool)
  | number (value : Number)
  | char (value : Char)
  /-- the token of a character literal -/
  | charToken (token : String)
  | stringBegin
  | stringEnd
  /-- characters of a string that stand for themselves -/
  | fragment (text : String)
  | escape (value : Escape)
  | symbol (value : Symbol)
  | keyword (value : Keyword)
  | pattern (source : String)
  /-- fixed punctuation, and the text of a comment -/
  | punctuation (text : String)
  | opening (delimiter : Delimiter)
  | closing (delimiter : Delimiter)
  | separator (value : Separator)
  deriving DecidableEq, Repr, Inhabited

/-! ### How pieces are written -/

/-- The texts of a symbol. -/
def Symbol.parts (s : Symbol) : List String :=
  match s.ns with
  | none => [s.name]
  | some ns => [ns, "/", s.name]

/-- The texts of a character value: a backslash, and its name, its number if it cannot be seen, or
itself. -/
def charParts (c : Char) : List String :=
  match nameForChar? c with
  | some name => ["\\", name]
  | none =>
    if isControl c || isWhiteSpace c then ["\\u", String.ofList (hexCapital 4 c.toNat)]
    else ["\\", c.toString]

/-- The texts of a separator: none where nothing separates neighbours. -/
def Separator.parts : Separator → List String
  | .none => []
  | .space => [" "]
  | .newline => ["\n"]

/-- The texts that a piece is written as by default, one after the other. -/
def Piece.parts : Piece → List (Option String)
  | .nil => [some "nil"]
  | .bool b => [some (if b then "true" else "false")]
  | .number n => n.parts
  | .char c => (charParts c).map some
  | .charToken token => [some "\\", some token]
  | .stringBegin | .stringEnd => [some "\""]
  | .fragment s => [some s]
  | .escape e => [some e.text]
  | .symbol s => s.parts.map some
  | .keyword k => some ":" :: k.symbol.parts.map some
  | .pattern source => [some "#\"", some source, some "\""]
  | .punctuation s => [some s]
  | .opening d => [some d.opening]
  | .closing d => [some d.closing]
  | .separator s => s.parts.map some

/-- The default text of a piece, if it is not broken off. -/
def Piece.text? (p : Piece) : Option String :=
  Text.join? p.parts

end FormTree
