import FormTree.Symbol

/-!
# Metadata

Metadata is an association of keywords to values in the order in which the keys came. It takes its
values from any type, so that forms can carry metadata whose values are forms.
-/

namespace FormTree

/-- Keywords with values, in insertion order. -/
structure Metadata (α : Type) where
  entries : List (Keyword × α)
  deriving Repr

namespace Metadata

variable {α : Type}

/-- Metadata without entries. -/
def empty : Metadata α := ⟨[]⟩

instance : Inhabited (Metadata α) := ⟨empty⟩

/-- Whether there are no entries. -/
def isEmpty (m : Metadata α) : Bool := m.entries.isEmpty

/-- The value under a key. -/
def get? (m : Metadata α) (key : Keyword) : Option α :=
  m.entries.lookup key

/-- The entries with `key` set to `value`: in place if the key is there, at the end otherwise. -/
def insertEntry (key : Keyword) (value : α) : List (Keyword × α) → List (Keyword × α)
  | [] => [(key, value)]
  | (k, v) :: rest =>
    if k = key then (k, value) :: rest else (k, v) :: insertEntry key value rest

/-- Sets a key. -/
def insert (m : Metadata α) (key : Keyword) (value : α) : Metadata α :=
  ⟨insertEntry key value m.entries⟩

/-- The key of the line of a position. -/
def lineKey : Keyword := .simple "line"

/-- The key of the column of a position. -/
def columnKey : Keyword := .simple "column"

/-- The metadata without the entries of a position. -/
def withoutPosition (m : Metadata α) : Metadata α :=
  ⟨m.entries.filter fun entry => entry.1 != lineKey && entry.1 != columnKey⟩

end Metadata

end FormTree
