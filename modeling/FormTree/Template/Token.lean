/-!
# Tokens of a template

A template is a form written inside a program, as the tokens that the program's language makes of
it. Punctuation comes one character at a time and says whether more of it follows immediately; what
is in brackets is a token of its own.
-/

namespace FormTree.Template

/-- The brackets around a group of tokens. -/
inductive Bracket where
  | parenthesis
  | square
  | brace
  /-- no bracket: tokens that stand together -/
  | invisible
  deriving DecidableEq, Repr, Inhabited

/-- The text of an opening bracket. -/
def Bracket.opening : Bracket → String
  | .parenthesis => "("
  | .square => "["
  | .brace => "\x7b"
  | .invisible => ""

/-- The text of a closing bracket. -/
def Bracket.closing : Bracket → String
  | .parenthesis => ")"
  | .square => "]"
  | .brace => "\x7d"
  | .invisible => ""

/-- A token. -/
inductive Token where
  | punctuation (c : Char) (joint : Bool)
  | name (text : String)
  | literal (text : String)
  | group (bracket : Bracket) (tokens : List Token)
  deriving Repr, Inhabited

/-- The text of a token, of a group that of its opening bracket. -/
def Token.text : Token → String
  | .punctuation c _ => c.toString
  | .name text => text
  | .literal text => text
  | .group bracket _ => bracket.opening

mutual

/-- The texts of a token and all tokens inside it. -/
def Token.flat : Token → List String
  | .group bracket tokens => bracket.opening :: (flatAll tokens ++ [bracket.closing])
  | .punctuation c _ => [c.toString]
  | .name text => [text]
  | .literal text => [text]

/-- The texts of all tokens. -/
def flatAll : List Token → List String
  | [] => []
  | t :: rest => t.flat ++ flatAll rest

end

mutual

/-- The tokens that a token stands for: a literal with a minus sign is two. -/
def Token.unsigned : Token → List Token
  | .literal text =>
    match text.toList with
    | '-' :: digits => [.punctuation '-' false, .literal (String.ofList digits)]
    | _ => [.literal text]
  | .group bracket tokens => [.group bracket (unsignedAll tokens)]
  | t => [t]

/-- The tokens with the signs of literals split off. -/
def unsignedAll : List Token → List Token
  | [] => []
  | t :: rest => t.unsigned ++ unsignedAll rest

end

end FormTree.Template
