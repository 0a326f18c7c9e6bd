import FormTree.Number.Basic

/-!
# Numbers spelled out

The **spelling** of a number has an exponent of whatever size. It is the text of the number unless
that exponent overflows, and then the number has no text. What is proved about the texts of numbers
is proved about spellings, which every number has.
-/

namespace FormTree

namespace Decimal

/-- The spelling of a decimal. -/
def spelling (d : Decimal) : String :=
  String.join (d.signParts ++ d.magnitudeParts)

/-- A decimal has a text just if its exponent does not overflow, and that is its spelling. -/
theorem toText?_eq (d : Decimal) :
    d.toText? = if d.overflows then none else some d.spelling := by
  rw [toText?, parts]
  split
  · rw [Text.join?_append, Text.join?_map_some]
    rfl
  · rw [← List.map_append, Text.join?_map_some, spelling]

end Decimal

namespace Number

/-- Whether the text of a number has an exponent that needs more than 64 bits. -/
def overflows : Number → Bool
  | .decimal d => d.overflows
  | _ => false

/-- The spelling of a number. -/
def spelling : Number → String
  | .int n => toString n.toInt
  | .big n => toString n ++ "N"
  | .ratio q => toString q.num ++ "/" ++ toString q.den
  | .float x => floatText x
  | .decimal d => d.spelling ++ "M"

/-- A number has a text just if no exponent in it overflows, and that is its spelling. -/
theorem toText?_eq (n : Number) : n.toText? = if n.overflows then none else some n.spelling := by
  cases n with
  | decimal d =>
    have hparts : Text.join? d.parts = d.toText? := rfl
    rw [toText?, parts, Text.join?_append, hparts, d.toText?_eq, overflows]
    split
    · rfl
    · simp [Text.join?, spelling]
  | _ => simp [toText?, parts, Text.join?, overflows, spelling, String.append_assoc]

end Number

end FormTree
