import FormTree.Text.CharClass

/-!
# Triggers

The characters that begin a construct of their own, alone or after a hash sign. Any other character
begins a token. Three triggers, `#`, `'` and `%`, may stand inside a token; the others end it.
-/

namespace FormTree

/-- What a trigger begins. -/
inductive Trigger where
  | string
  | comment
  | comma
  | quote
  | deref
  | note
  | backquote
  | unquote
  | list
  | vector
  | map
  /-- a closing delimiter -/
  | unmatched
  | character
  | arg
  /-- a hash sign: the next character decides -/
  | hash
  deriving DecidableEq, Repr, Inhabited

/-- What a character after a hash sign begins. -/
inductive HashTrigger where
  | note
  | var
  | pattern
  | function
  | set
  | eval
  | shebang
  | unreadable
  | discard
  | conditional
  | symbolic
  deriving DecidableEq, Repr, Inhabited

/-- What `c` begins, if it is a trigger. -/
def Trigger.ofChar? (c : Char) : Option Trigger :=
  match c with
  | '"' => some .string
  | '#' => some .hash
  | '%' => some .arg
  | '\'' => some .quote
  | '(' => some .list
  | ')' => some .unmatched
  | ',' => some .comma
  | ';' => some .comment
  | '@' => some .deref
  | '[' => some .vector
  | '\\' => some .character
  | ']' => some .unmatched
  | '^' => some .note
  | '\x60' => some .backquote
  | '\x7b' => some .map
  | '\x7d' => some .unmatched
  | '~' => some .unquote
  | _ => none

/-- What `c` begins after a hash sign. Any other character begins a tag. -/
def HashTrigger.ofChar? (c : Char) : Option HashTrigger :=
  match c with
  | '!' => some .shebang
  | '"' => some .pattern
  | '#' => some .symbolic
  | '\'' => some .var
  | '(' => some .function
  | '<' => some .unreadable
  | '=' => some .eval
  | '?' => some .conditional
  | '^' => some .note
  | '_' => some .discard
  | '\x7b' => some .set
  | _ => none

/-- Whether `c` is a trigger. -/
def isTrigger (c : Char) : Bool :=
  (Trigger.ofChar? c).isSome

/-- Whether `c` is a trigger that ends a token. -/
def isTerminating (c : Char) : Bool :=
  isTrigger c && c != '#' && c != '\'' && c != '%'

/-- Whether `c` ends a token. -/
def endsToken (c : Char) : Bool :=
  Text.isBlank c || isTerminating c

/-- Whether `c` ends a number. Unlike a token, a number ends at any trigger. -/
def endsNumber (c : Char) : Bool :=
  Text.isBlank c || isTrigger c

end FormTree
