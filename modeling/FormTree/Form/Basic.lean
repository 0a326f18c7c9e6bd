import FormTree.Form.Metadata
import FormTree.Number.Basic
import FormTree.Position

/-!
# Forms

A form is a piece of source as a tree. Atoms are plain data. Around them the tree keeps what a
program does not see but its author wrote: the marks that quote or dereference a form, comments,
commas, forms that are discarded, conditionals.

Comments, commas and discarded forms are **trivia**: they stand in the sequence of elements of the
form around them and are written back out, but they are no data.

Equality of forms asks whether two forms say the same: it ignores where they were read, the metadata
of a list, the symbols generated for a backquoted form, and whether a pattern was compiled.
-/

namespace FormTree

/-- A mark in front of one form. -/
inductive Mark where
  /-- `'form` -/
  | quote
  /-- `@form` -/
  | deref
  /-- `~form` -/
  | unquote
  /-- `~@form` -/
  | unquoteSplicing
  /-- `#=form`, to be evaluated by the reader -/
  | eval
  /-- `#'form` -/
  | var
  /-- `#(...)`, a function literal; the form is the list -/
  | function
  /-- `#_form`, a discarded form -/
  | discard
  deriving DecidableEq, Repr, Inhabited

/-- What stands after the caret of an annotated form. -/
inductive NoteKind where
  /-- a symbol or string: a type hint -/
  | tag
  /-- a keyword: short for a map from it to `true` -/
  | flag
  /-- a map -/
  | map
  deriving DecidableEq, Repr, Inhabited

/-- What begins a comment, which runs to the end of its line. -/
inductive CommentStyle where
  /-- `;` -/
  | line
  /-- `#!` -/
  | shebang
  deriving DecidableEq, Repr, Inhabited

/-- The argument that an argument literal stands for. -/
inductive ArgRef where
  /-- `%`, the first argument -/
  | implicit
  /-- `%n` -/
  | index (n : Nat)
  /-- `%&`, the arguments after the numbered ones -/
  | rest
  deriving DecidableEq, Repr, Inhabited

/-- A sequence of elements other than a list. -/
inductive Group where
  /-- `[...]` -/
  | vector
  /-- `{...}`, keys and values alternating -/
  | map
  /-- `#{...}` -/
  | set
  /-- `#?(...)`, or `#?@(...)` if splicing; the position is that of the parenthesis -/
  | conditional (splicing : Bool) (position : Option Position)
  /-- the forms of a whole text -/
  | file
  deriving DecidableEq, Repr, Inhabited

/-- A form. -/
inductive Form where
  | nil
  | bool (value : Bool)
  | number (value : Number)
  /-- A character as a value. The reader keeps the spelling and gives `charLiteral`. -/
  | char (value : Char)
  | string (text : String)
  | symbol (value : Symbol)
  | keyword (value : Keyword)
  /-- `#"source"`, and whether a pattern engine compiled it -/
  | pattern (source : String) (compiled : Bool)
  /-- `#tag form`, left to the program -/
  | tagged (tag : Symbol) (form : Form)
  /-- a form with a mark in front -/
  | marked (mark : Mark) (form : Form)
  /-- `^note form`; the position is that of the caret -/
  | annotated (kind : NoteKind) (note : Form) (object : Form) (position : Option Position)
  /-- a backquoted form, as written, and the symbols to generate for names in it -/
  | backquoted (form : Form) (gensyms : List (Symbol × Symbol))
  /-- a character literal: the token after the backslash, and the character it denotes -/
  | charLiteral (token : String) (value : Char)
  | arg (ref : ArgRef)
  | comment (style : CommentStyle) (text : String)
  | comma
  /-- `(...)` -/
  | list (info : Metadata Form) (elements : List Form)
  | group (group : Group) (elements : List Form)
  deriving Inhabited

namespace Group

/-- Whether two groups are of one kind; positions do not matter. -/
def same : Group → Group → Bool
  | .conditional s _, .conditional t _ => s == t
  | g, h => g == h

end Group

namespace Form

/-! ### Constructors in short -/

/-- A vector. -/
def vector (elements : List Form) : Form := .group .vector elements

/-- A map, from its keys and values in turn. -/
def map (elements : List Form) : Form := .group .map elements

/-- A set. -/
def set (elements : List Form) : Form := .group .set elements

/-- The forms of a whole text. -/
def file (forms : List Form) : Form := .group .file forms

/-- An integer. -/
def ofInt (n : Int) : Form := .number (.ofInt n)

/-! ### Equality -/

mutual

/-- Whether two forms say the same. -/
def same : Form → Form → Bool
  | .nil, .nil => true
  | .bool a, .bool b => a == b
  | .number m, .number n => m.same n
  | .char a, .char b => a == b
  | .string a, .string b => a == b
  | .symbol a, .symbol b => a == b
  | .keyword a, .keyword b => a == b
  | .pattern a _, .pattern b _ => a == b
  | .tagged t f, .tagged u g => t == u && same f g
  | .marked m f, .marked n g => m == n && same f g
  | .annotated k m f _, .annotated l n g _ => k == l && same m n && same f g
  | .backquoted f _, .backquoted g _ => same f g
  | .charLiteral t a, .charLiteral u b => t == u && a == b
  | .arg a, .arg b => a == b
  | .comment s a, .comment t b => s == t && a == b
  | .comma, .comma => true
  | .list _ fs, .list _ gs => sameAll fs gs
  | .group a fs, .group b gs => a.same b && sameAll fs gs
  | _, _ => false

/-- Whether two sequences of forms say the same, element by element. -/
def sameAll : List Form → List Form → Bool
  | [], [] => true
  | f :: fs, g :: gs => same f g && sameAll fs gs
  | _, _ => false

end

instance : BEq Form := ⟨same⟩

end Form

end FormTree
