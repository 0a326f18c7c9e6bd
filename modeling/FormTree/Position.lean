/-!
# Positions in a text

A position is that of the character read last, its line counted from one and its column being the
number of characters read on that line. A line feed begins the next line.
-/

namespace FormTree

/-- A position in a text. -/
structure Position where
  line : Nat
  column : Nat
  deriving DecidableEq, Repr, Inhabited

namespace Position

/-- The position before any character. -/
def start : Position := ⟨1, 0⟩

/-- The position after one more character. -/
def step (p : Position) (c : Char) : Position :=
  if c == '\n' then ⟨p.line + 1, 0⟩ else ⟨p.line, p.column + 1⟩

/-- The position after more characters. -/
def after (p : Position) (cs : List Char) : Position :=
  cs.foldl step p

end Position

end FormTree
