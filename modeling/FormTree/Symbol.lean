/-!
# Symbols and keywords

A symbol has a name and may be qualified by a namespace; a keyword is a symbol used as a constant.
The order puts unqualified names first, and compares namespaces before names.
-/

namespace FormTree

/-- A name that may be qualified by a namespace. -/
structure Symbol where
  ns : Option String
  name : String
  deriving DecidableEq, Repr, Inhabited, Hashable

/-- A symbol used as a constant. -/
structure Keyword where
  symbol : Symbol
  deriving DecidableEq, Repr, Inhabited, Hashable

namespace Symbol

/-- An unqualified symbol. -/
def simple (name : String) : Symbol := ⟨none, name⟩

/-- Splits a text at its first slash into namespace and name. A lone slash is a name. -/
def parse (text : String) : Symbol :=
  if text == "/" then simple text
  else
    match text.toList.span (· != '/') with
    | (_, []) => simple text
    | (ns, _ :: name) => ⟨some (String.ofList ns), String.ofList name⟩

/-- The symbol with its namespace replaced. -/
def withNamespace (s : Symbol) (ns : String) : Symbol := { s with ns := some ns }

/-- The text of a symbol. -/
def toText (s : Symbol) : String :=
  match s.ns with
  | none => s.name
  | some ns => ns ++ "/" ++ s.name

instance : ToString Symbol := ⟨toText⟩

/-- The order of symbols. -/
def compare (s t : Symbol) : Ordering :=
  let byNamespace : Ordering := match s.ns, t.ns with
    | none, none => .eq
    | none, some _ => .lt
    | some _, none => .gt
    | some a, some b => Ord.compare a b
  byNamespace.then (Ord.compare s.name t.name)

instance : Ord Symbol := ⟨compare⟩

end Symbol

namespace Keyword

/-- An unqualified keyword. -/
def simple (name : String) : Keyword := ⟨.simple name⟩

/-- The keyword of a text without the leading colon, split like a symbol. -/
def parse (text : String) : Keyword := ⟨Symbol.parse text⟩

/-- The namespace, if there is one. -/
def ns (k : Keyword) : Option String := k.symbol.ns

/-- The name. -/
def name (k : Keyword) : String := k.symbol.name

/-- The text of a keyword. -/
def toText (k : Keyword) : String := ":" ++ k.symbol.toText

instance : ToString Keyword := ⟨toText⟩

instance : Ord Keyword := ⟨fun k l => Ord.compare k.symbol l.symbol⟩

end Keyword

end FormTree
