import FormTree.Form.Basic

/-!
# Parts of a form

What a form is and what it holds. `elements` are the elements of a sequence with its trivia, and
`data` those that count; `inner` is the one form that another is put around.
-/

namespace FormTree.Form

/-- Whether a form is **trivia**: a comment, a comma or a discarded form. -/
def isTrivia : Form → Bool
  | .comment _ _ | .comma | .marked .discard _ => true
  | _ => false

/-- Whether a form can be annotated. -/
def isAnnotatable : Form → Bool
  | .symbol _ | .list _ _ | .group .vector _ | .group .map _ | .group .set _
  | .annotated _ _ _ _ => true
  | _ => false

/-- Whether a form stands for itself: keywords, numbers, characters and strings. -/
def isLiteral : Form → Bool
  | .keyword _ | .number _ | .char _ | .string _ | .charLiteral _ _ => true
  | _ => false

/-- Whether a form is a list or a vector. -/
def isSequential : Form → Bool
  | .list _ _ | .group .vector _ => true
  | _ => false

/-- The symbol that a form is. -/
def toSymbol? : Form → Option Symbol
  | .symbol s => some s
  | _ => none

/-- The keyword that a form is. -/
def toKeyword? : Form → Option Keyword
  | .keyword k => some k
  | _ => none

/-- The number that a form is. -/
def toNumber? : Form → Option Number
  | .number n => some n
  | _ => none

/-- The string that a form is. -/
def toString? : Form → Option String
  | .string s => some s
  | _ => none

/-- The integer of 64 bits that a form is. -/
def toInt64? (f : Form) : Option Int64 :=
  f.toNumber?.bind Number.toInt64?

/-- The character that a form denotes. -/
def toChar? : Form → Option Char
  | .char c | .charLiteral _ c => some c
  | _ => none

/-- The elements of a sequence, trivia included. -/
def elements? : Form → Option (List Form)
  | .list _ es | .group _ es => some es
  | _ => none

/-- The forms of a sequence that are no trivia. -/
def dataOf (es : List Form) : List Form :=
  es.filter (!·.isTrivia)

/-- The elements of a sequence that count. -/
def data? (f : Form) : Option (List Form) :=
  f.elements?.map dataOf

/-- The form that a mark, an annotation or a backquote is put in front of. -/
def inner? : Form → Option Form
  | .marked _ f | .annotated _ _ f _ | .backquoted f _ => some f
  | _ => none

/-- Consecutive elements in pairs; an odd one at the end is left out. -/
def pairsOf : List Form → List (Form × Form)
  | a :: b :: rest => (a, b) :: pairsOf rest
  | _ => []

/-- The features and forms of a conditional. -/
def branches? : Form → Option (List (Form × Form))
  | .group (.conditional _ _) es => some (pairsOf (dataOf es))
  | _ => none

end FormTree.Form

namespace FormTree.Metadata

/-- The metadata of a position. -/
def at? (position : Option Position) : Metadata Form :=
  match position with
  | none => empty
  | some p => ⟨[(lineKey, .ofInt p.line), (columnKey, .ofInt p.column)]⟩

/-- Metadata that records a position has nothing else in it. -/
theorem isEmpty_withoutPosition_at? (position : Option Position) :
    (at? position).withoutPosition.isEmpty = true := by
  cases position <;> simp [at?, withoutPosition, isEmpty, empty]

/-- The number of 64 bits under a key, as an unsigned one. -/
def coordinate? (m : Metadata Form) (key : Keyword) : Option Nat :=
  ((m.get? key).bind Form.toInt64?).map fun n => n.toUInt64.toNat

/-- The position that metadata records. -/
def position? (m : Metadata Form) : Option Position := do
  some ⟨← m.coordinate? lineKey, ← m.coordinate? columnKey⟩

/-- Metadata as a map. -/
def toForm (m : Metadata Form) : Form :=
  .map (m.entries.flatMap fun (k, v) => [.keyword k, v])

end FormTree.Metadata
