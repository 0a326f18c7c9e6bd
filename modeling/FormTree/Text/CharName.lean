/-!
# Named characters

The six characters that have a name, as in `\newline`.
-/

namespace FormTree.Text

/-- The names and what they stand for. -/
def charNames : List (String × Char) :=
  [("newline", '\n'), ("space", ' '), ("tab", '\t'), ("backspace", '\x08'), ("formfeed", '\x0c'),
    ("return", '\r')]

/-- The character that a name stands for. -/
def charForName? (name : String) : Option Char :=
  charNames.lookup name

/-- The name of a character that has one. -/
def nameForChar? (c : Char) : Option String :=
  (charNames.find? fun entry => entry.2 == c).map Prod.fst

end FormTree.Text
