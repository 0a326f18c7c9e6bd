import FormTree.Reader.Gensym

/-!
# Scopes

Three constructs have to be known of by what is inside of them: a backquote gathers the symbols to
generate for the form after it, a function literal must not hold another one, and inside a
conditional tagged forms may be kept as they are. A **scope** is entered with the construct and left
after it, on every way out of it.

Backquotes nest and each has its own symbols; conditionals nest and are counted; function literals
do not nest.
-/

namespace FormTree

/-- The constructs that what is inside of them has to know of. -/
inductive Scope where
  | backquote
  | function
  | conditional
  deriving DecidableEq, Repr, Inhabited

/-- The scopes that have been entered and not left. -/
structure Scopes where
  /-- the symbols generated so far for each backquote, the innermost first -/
  gensyms : List (List (Symbol × Symbol))
  inFunction : Bool
  conditionals : Nat
  deriving DecidableEq, Repr, Inhabited

namespace Scopes

/-- No scope at all. -/
def none : Scopes := ⟨[], false, 0⟩

/-- Whether a conditional has been entered and not left. -/
def inConditional (s : Scopes) : Bool := 0 < s.conditionals

/-- Enters a scope. -/
def enter (s : Scopes) : Scope → Scopes
  | .backquote => { s with gensyms := [] :: s.gensyms }
  | .function => { s with inFunction := true }
  | .conditional => { s with conditionals := s.conditionals + 1 }

/-- Leaves a scope. -/
def leave (s : Scopes) : Scope → Scopes
  | .backquote => { s with gensyms := s.gensyms.tail }
  | .function => { s with inFunction := false }
  | .conditional => { s with conditionals := s.conditionals - 1 }

end Scopes

end FormTree
