import FormTree.Form.Basic

/-!
# Record types

A record type makes forms of record literals, either from fields in order or from entries. The
record types with named fields give tagged maps.
-/

namespace FormTree

/-- How records of a type are made. -/
structure RecordType where
  /-- whether there is a constructor for that many fields in order -/
  acceptsArity : Nat → Bool
  ofFields : Symbol → List Form → Except String Form
  ofEntries : Symbol → List (Keyword × Form) → Except String Form

namespace RecordType

/-- The tagged map of entries. -/
def taggedMap (name : Symbol) (entries : List (Keyword × Form)) : Form :=
  .tagged name (.map (entries.flatMap fun (k, v) => [.keyword k, v]))

/-- The record type with the named fields. -/
def named (fields : List String) : RecordType where
  acceptsArity n := n == fields.length
  ofFields name values := .ok (taggedMap name ((fields.map Keyword.simple).zip values))
  ofEntries name entries := .ok (taggedMap name entries)

end RecordType

end FormTree
