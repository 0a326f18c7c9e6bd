import FormTree.Print.Form
import FormTree.Proofs.Number.Spelling

/-!
# Forms spelled out

The **spelling** of a form is its text with exponents of whatever size. It is the text of the form
unless an exponent in it overflows, and then the form has no text.
-/

namespace FormTree

/-- The text of a separator. -/
def Separator.text : Separator → String
  | .none => ""
  | .space => " "
  | .newline => "\n"

/-- The text of a character value. -/
def charText (c : Char) : String :=
  String.join (charParts c)

theorem Symbol.join_parts (s : Symbol) : String.join s.parts = s.toText := by
  rw [parts, toText]
  rcases s.ns with - | ns <;> simp [String.append_assoc]

namespace Piece

/-- Whether a piece is a number whose text has an exponent that needs more than 64 bits. -/
def overflows : Piece → Bool
  | .number n => n.overflows
  | _ => false

/-- The spelling of a piece. -/
def spelling : Piece → String
  | .nil => "nil"
  | .bool b => if b then "true" else "false"
  | .number n => n.spelling
  | .char c => charText c
  | .charToken token => "\\" ++ token
  | .stringBegin | .stringEnd => "\""
  | .fragment s => s
  | .escape e => e.text
  | .symbol s => s.toText
  | .keyword k => k.toText
  | .pattern source => "#\"" ++ source ++ "\""
  | .punctuation s => s
  | .opening d => d.opening
  | .closing d => d.closing
  | .separator s => s.text

/-- A piece has a text just if no exponent in it overflows, and that is its spelling. -/
theorem text?_eq (p : Piece) : p.text? = if p.overflows then none else some p.spelling := by
  rw [text?]
  cases p with
  | number n => exact n.toText?_eq
  | char c => exact Text.join?_map_some _
  | symbol s => exact (Text.join?_map_some _).trans (congrArg some s.join_parts)
  | keyword k =>
    rw [parts, Text.join?, Text.join?_map_some, k.symbol.join_parts]
    rfl
  | separator s =>
    refine (Text.join?_map_some _).trans (congrArg some ?_)
    cases s <;> simp [Separator.parts, spelling, Separator.text]
  | _ => simp [parts, Text.join?, overflows, spelling, String.append_assoc]

end Piece

namespace Form

/-- Whether an exponent in the text of a form needs more than 64 bits. -/
def overflows (f : Form) : Bool :=
  f.pieces.any Piece.overflows

/-- The spelling of a form. -/
def spelling (f : Form) : String :=
  String.join (f.pieces.map Piece.spelling)

/-- A form has a text just if no exponent in it overflows, and that is its spelling. -/
theorem emit?_eq (f : Form) : f.emit? = if f.overflows then none else some f.spelling := by
  rw [emit?, print?, overflows, spelling]
  induction f.pieces with
  | nil => rfl
  | cons p ps ih =>
    rw [List.map_cons, p.text?_eq, List.any_cons]
    rcases p.overflows with - | -
    · rw [if_neg Bool.false_ne_true, Text.join?, ih, Bool.false_or, List.map_cons, String.join_cons]
      split <;> rfl
    · rfl

/-- **The text of a form** is its spelling, unless an exponent in it overflows; then it has none. -/
theorem emit?_eq_some_iff {f : Form} {text : String} :
    f.emit? = some text ↔ f.overflows = false ∧ f.spelling = text := by
  rw [emit?_eq]
  rcases f.overflows with - | - <;> simp

end Form

end FormTree
