import FormTree.Form.Access
import FormTree.Print.Writer

/-!
# Printing forms

Every form is printed by its own punctuation around its parts. Neighbours in a sequence are
separated by one space, but nothing stands before a comma, and a comment is always followed by a
line break, also one that ends the form it is inside of. The forms of a file stand on lines of
their own.
-/

namespace FormTree

/-- Whether the text of a form ends with a comment, which only a line break ends. -/
def Form.endsWithComment : Form → Bool
  | .comment _ _ => true
  | .tagged _ f | .marked _ f | .annotated _ _ f _ | .backquoted f _ => f.endsWithComment
  | _ => false

/-- Whether a form is a comma. -/
def Form.isComma : Form → Bool
  | .comma => true
  | _ => false

/-- The separator between two neighbours in a sequence, `none` standing for a delimiter. -/
def Separator.between (before after : Option Form) : Separator :=
  match before with
  | Option.none => .none
  | some f =>
    if f.endsWithComment then .newline
    else
      match after with
      | Option.none => .none
      | some g => if g.isComma then .none else .space

/-- The text of a mark. -/
def Mark.text : Mark → String
  | .quote => "'"
  | .deref => "@"
  | .unquote => "~"
  | .unquoteSplicing => "~@"
  | .eval => "#="
  | .var => "#'"
  | .function => "#"
  | .discard => "#_"

/-- The text that begins a comment. -/
def CommentStyle.text : CommentStyle → String
  | .line => ";"
  | .shebang => "#!"

/-- The pieces of an argument literal. -/
def ArgRef.pieces : ArgRef → List Piece
  | .implicit => [.punctuation "%"]
  | .rest => [.punctuation "%&"]
  | .index n => [.punctuation "%", .punctuation (toString n)]

/-- The delimiter of a group; a file has none. -/
def Group.delimiter? : Group → Option Delimiter
  | .vector => some .vector
  | .map => some .map
  | .set => some .set
  | .conditional splicing _ => some (.conditional splicing)
  | .file => none

/-- What is written in one go between the quotes of a string: the bytes of its text from one offset
up to another, or an escape. -/
inductive StringPart where
  | slice (start stop : Nat)
  | escape (value : Escape)
  deriving DecidableEq, Repr, Inhabited

/-- The piece that a part of a string is written as. -/
def StringPart.piece (s : String) : StringPart → Piece
  | .slice start stop => .fragment (String.Pos.Raw.extract s ⟨start⟩ ⟨stop⟩)
  | .escape e => .escape e

/-- The parts of a string whose bytes from the offset `i` on are these. Those from `start` up to `i`
stand for themselves and are still to be written. -/
def stringParts (start i : Nat) : List UInt8 → List StringPart
  | [] => if start != i then [.slice start i] else []
  | b :: rest =>
    match Escape.ofByte? b with
    | none => stringParts start (i + 1) rest
    | some e =>
      (if start < i then [.slice start i] else []) ++ .escape e :: stringParts (i + 1) (i + 1) rest

/-- The pieces between the quotes of a string: fragments that stand for themselves, and escapes. -/
def stringPieces (s : String) : List Piece :=
  (stringParts 0 0 s.toUTF8.toList).map (StringPart.piece s)

namespace Form

mutual

/-- The pieces of a form. -/
def pieces : Form → List Piece
  | .nil => [.nil]
  | .bool b => [.bool b]
  | .number n => [.number n]
  | .char c => [.char c]
  | .string s => .stringBegin :: (stringPieces s ++ [.stringEnd])
  | .symbol s => [.symbol s]
  | .keyword k => [.keyword k]
  | .pattern source _ => [.pattern source]
  | .tagged tag f => .punctuation "#" :: .symbol tag :: .separator .space :: f.pieces
  | .marked mark f => .punctuation mark.text :: f.pieces
  | .annotated _ note object _ =>
    .punctuation "^" :: (note.pieces ++ .separator .space :: object.pieces)
  | .backquoted f _ => .punctuation "\x60" :: f.pieces
  | .charLiteral token _ => [.charToken token]
  | .arg ref => ref.pieces
  | .comment style text => [.punctuation style.text, .punctuation text]
  | .comma => [.punctuation ","]
  | .list _ es => .opening .list :: (piecesWithin none es ++ [.closing .list])
  | .group kind es =>
    match kind.delimiter? with
    | some d => .opening d :: (piecesWithin none es ++ [.closing d])
    | none => piecesByLine true es

/-- The pieces of the elements of a sequence that follow the element `before`, with the separators
around them. -/
def piecesWithin : Option Form → List Form → List Piece
  | before, [] => [.separator (.between before none)]
  | before, f :: rest =>
    .separator (.between before (some f)) :: (f.pieces ++ piecesWithin (some f) rest)

/-- The pieces of forms on lines of their own. -/
def piecesByLine : Bool → List Form → List Piece
  | _, [] => []
  | first, f :: rest =>
    if first then f.pieces ++ piecesByLine false rest
    else .separator .newline :: (f.pieces ++ piecesByLine false rest)

end

/-- The text of a form when every piece is written as `style` has it, if that breaks nothing off. -/
def print? (style : Piece → Option String) (f : Form) : Option String :=
  Text.join? (f.pieces.map style)

/-- The text of a form. A form has none if the exponent of a decimal in it overflows. -/
def emit? (f : Form) : Option String :=
  f.print? Piece.text?

/-! ### Writing -/

section

variable {ε σ : Type} (w : Writer ε σ)

mutual

/-- Writes a form piece by piece, up to the first failure. -/
def write : Form → EStateM (WriteFault ε) σ Unit
  | .nil => Piece.nil.write w
  | .bool b => (Piece.bool b).write w
  | .number n => (Piece.number n).write w
  | .char c => (Piece.char c).write w
  | .string s => do
    Piece.stringBegin.write w
    writePieces w (stringPieces s)
    Piece.stringEnd.write w
  | .symbol s => (Piece.symbol s).write w
  | .keyword k => (Piece.keyword k).write w
  | .pattern source _ => (Piece.pattern source).write w
  | .tagged tag f => do
    (Piece.punctuation "#").write w
    (Piece.symbol tag).write w
    (Piece.separator .space).write w
    f.write
  | .marked mark f => do
    (Piece.punctuation mark.text).write w
    f.write
  | .annotated _ note object _ => do
    (Piece.punctuation "^").write w
    note.write
    (Piece.separator .space).write w
    object.write
  | .backquoted f _ => do
    (Piece.punctuation "\x60").write w
    f.write
  | .charLiteral token _ => (Piece.charToken token).write w
  | .arg ref => writePieces w ref.pieces
  | .comment style text => do
    (Piece.punctuation style.text).write w
    (Piece.punctuation text).write w
  | .comma => (Piece.punctuation ",").write w
  | .list _ es => do
    (Piece.opening .list).write w
    writeWithin none es
    (Piece.closing .list).write w
  | .group kind es =>
    match kind.delimiter? with
    | some d => do
      (Piece.opening d).write w
      writeWithin none es
      (Piece.closing d).write w
    | none => writeByLine true es

/-- Writes the elements of a sequence that follow the element `before`, with the separators around
them. -/
def writeWithin : Option Form → List Form → EStateM (WriteFault ε) σ Unit
  | before, [] => (Piece.separator (.between before none)).write w
  | before, f :: rest => do
    (Piece.separator (.between before (some f))).write w
    f.write
    writeWithin (some f) rest

/-- Writes forms on lines of their own. -/
def writeByLine : Bool → List Form → EStateM (WriteFault ε) σ Unit
  | _, [] => return
  | first, f :: rest => do
    unless first do (Piece.separator .newline).write w
    f.write
    writeByLine false rest

end

end

/-- Prints a form into the space of a number of bytes, as far as it fits. Tells what was written,
and why that was not all. -/
def printBounded (capacity : Nat) (f : Form) : List UInt8 × Option (WriteFault WriteError) :=
  match f.write Buffer.write (.ofCapacity capacity) with
  | .ok _ b => (b.written.toList, none)
  | .error e b => (b.written.toList, some e)

end Form

end FormTree
