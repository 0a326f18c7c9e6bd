import FormTree.Template.Value
import FormTree.Text.Quoted

/-!
# Code of templates

The expression of the program that builds the form a template denotes, as the texts of its tokens.
Every character of punctuation is a token. The elements of a sequence are put into a vector first,
so that what they have in common is their type.
-/

namespace FormTree.Template

/-- A path from the root of all names. -/
def path (names : List String) : List String :=
  names.flatMap fun name => [":", ":", name]

/-- The path of a name that belongs to forms. -/
def formPath (name : String) : List String :=
  path ["cst_reader", "Form", name]

/-- A call of a constructor of forms. -/
def call (constructor : String) (arguments : List String) : List String :=
  formPath constructor ++ "(" :: (arguments ++ [")"])

/-- Parts with a comma between neighbours. -/
def commaSeparated : List (List String) → List String
  | [] => []
  | [part] => part
  | part :: rest => part ++ "," :: commaSeparated rest

/-- The block whose value is the vector of elements. -/
def block (elements : List (List String)) : List String :=
  ["\x7b", "let", "elements", ":"] ++ path ["std", "vec", "Vec"] ++ ["<"] ++
    path ["cst_reader", "Form"] ++ [">", "="] ++ path ["std", "vec"] ++ ["!", "["] ++
    commaSeparated elements ++ ["]", ";", "elements", "\x7d"]

mutual

/-- The code of a value. -/
def Value.code : Value → List String
  | .nil => formPath "Nil"
  | .literal text => call "from" [text]
  | .negated text => call "from" ["-", text]
  | .bool b => call "from" [if b then "true" else "false"]
  | .symbol text => call "symbol" [Text.quoteInCode text]
  | .keyword text => call "keyword" [Text.quoteInCode text]
  | .unquoted token => call "from" token.flat
  | .list elements => call "list" (block (codes elements))
  | .vector elements => call "vector" (block (codes elements))
  | .map elements => call "map" (block (codes elements))
  | .set elements => call "set" (block (codes elements))

/-- The codes of values. -/
def codes : List Value → List (List String)
  | [] => []
  | v :: rest => v.code :: codes rest

end

end FormTree.Template
