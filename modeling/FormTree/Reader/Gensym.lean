import FormTree.Form.Basic

/-!
# Generated symbols

Inside a backquoted form an unqualified symbol that ends with a hash sign stands for a generated
one, the same for all its occurrences. Symbols are numbered in the order of their first occurrence
and numbers are never used twice. What is under an unquote or another backquote does not count, nor
does what annotates a form.
-/

namespace FormTree

/-- The symbols generated so far for a backquoted form, in order, and the number of symbols ever
generated. -/
structure Gensyms where
  pairs : List (Symbol × Symbol)
  generated : Nat
  deriving Repr, Inhabited

namespace Gensyms

/-- Whether a symbol is to be replaced by a generated one. -/
def isAuto (s : Symbol) : Bool :=
  s.ns.isNone && s.name.toList.getLast? == some '#'

/-- The generated symbol with number `n` for the symbol `s`. -/
def fresh (s : Symbol) (n : Nat) : Symbol :=
  let stem := (s.name.toList.reverse.dropWhile (· == '#')).reverse
  .simple (String.ofList stem ++ "__" ++ toString n ++ "__auto__")

/-- Registers a symbol, unless it is registered. -/
def register (g : Gensyms) (s : Symbol) : Gensyms :=
  if (g.pairs.lookup s).isSome then g
  else ⟨g.pairs ++ [(s, fresh s (g.generated + 1))], g.generated + 1⟩

mutual

/-- Registers the symbols of a form. -/
def collect (g : Gensyms) : Form → Gensyms
  | .symbol s => if isAuto s then g.register s else g
  | .marked .unquote _ | .marked .unquoteSplicing _ | .backquoted _ _ => g
  | .marked _ f | .annotated _ _ f _ | .tagged _ f => collect g f
  | .list _ es | .group _ es => collectAll g es
  | _ => g

/-- Registers the symbols of forms, one form after the other. -/
def collectAll (g : Gensyms) : List Form → Gensyms
  | [] => g
  | f :: rest => collectAll (collect g f) rest

end

end Gensyms

end FormTree
