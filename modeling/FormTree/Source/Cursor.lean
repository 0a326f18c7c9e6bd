import FormTree.Reader.Cause
import FormTree.Text.CharClass

/-!
# Cursors

A cursor stands between what a source has delivered and what it has yet to deliver. A character may
be handed back to it; it is then delivered first, so that scanning can look one character ahead. The
cursor counts positions and shows them, unless the source hides them. Scanning functions move the
cursor also when they fail, so that reading can go on after an error.
-/

namespace FormTree

/-- What a source has yet to deliver, and where it stands. -/
structure Cursor where
  /-- what the source itself has yet to deliver -/
  source : List Item
  /-- a character handed back, which comes before that -/
  held : Option Char
  /-- the position after what has been delivered -/
  place : Position
  /-- the column before the line feed delivered last -/
  lastColumn : Nat
  /-- whether positions are shown -/
  tracked : Bool
  /-- what has been delivered and not handed back, the last character first -/
  passed : List Char
  /-- whether every character handed back was the one delivered last, with none held -/
  orderly : Bool
  deriving Inhabited

/-- A scanning function. -/
abbrev Scan (α : Type) := EStateM Cause Cursor α

namespace Cursor

/-- The cursor at the beginning of what a source delivers. -/
def ofItems (items : List Item) : Cursor :=
  ⟨items, none, .start, 0, true, [], true⟩

/-- The cursor at the beginning of a text. -/
def ofText (text : String) : Cursor :=
  ofItems (text.toList.map Except.ok)

/-- The cursor at the beginning of a byte stream. -/
def ofStream (stream : List Utf8.Delivery) : Cursor :=
  ofItems (Utf8.items stream)

/-- The cursor with its positions hidden. -/
def untracked (k : Cursor) : Cursor := { k with tracked := false }

/-- What is left to deliver: the character handed back, if there is one, and then the source. -/
def pending (k : Cursor) : List Item :=
  match k.held with
  | some c => .ok c :: k.source
  | none => k.source

/-- How much is left to deliver. -/
def size (k : Cursor) : Nat := k.pending.length

/-- The position after what has been delivered, if it is shown. -/
def position (k : Cursor) : Option Position :=
  if k.tracked then some k.place else none

/-- Counts a character that is delivered. -/
def advance (k : Cursor) (c : Char) : Cursor :=
  { k with
    place := k.place.step c
    lastColumn := if c == '\n' then k.place.column else k.lastColumn
    passed := c :: k.passed }

/-- Takes back the count of the character delivered last. -/
def retreat (k : Cursor) (c : Char) : Cursor :=
  { k with
    place := if c == '\n' then ⟨k.place.line - 1, k.lastColumn⟩
      else ⟨k.place.line, k.place.column - 1⟩ }

/-- Delivers the next character, or nothing at the end. -/
def next : Scan (Option Char) := fun k =>
  match k.held with
  | some c => .ok (some c) ({ k with held := none }.advance c)
  | none =>
    match k.source with
    | [] => .ok none k
    | .ok c :: rest => .ok (some c) ({ k with source := rest }.advance c)
    | .error fault :: rest => .error (.source fault) { k with source := rest }

/-- The cursor with `c`, the character delivered last, handed back to it. -/
def handBack (k : Cursor) (c : Char) : Cursor :=
  { k.retreat c with
    held := some c
    passed := k.passed.tail
    orderly := k.orderly && k.held.isNone && k.passed.head? == some c }

/-- Hands the character delivered last back. -/
def unread (c : Char) : Scan Unit := fun k => .ok () (k.handBack c)

/-- Delivering a character leaves less to deliver. -/
theorem size_lt_of_next {k k' : Cursor} {c : Char} (h : next k = .ok (some c) k') :
    k'.size < k.size := by
  unfold next at h
  split at h
  · rename_i hk
    cases h
    simp [size, pending, advance, hk]
  · rename_i hk
    split at h <;> cases h
    rename_i hs
    simp [size, pending, advance, hk, hs]

/-- Puts characters in front of those that a run gives. -/
def prepend (cs : List Char) :
    EStateM.Result Cause Cursor (List Char) → EStateM.Result Cause Cursor (List Char)
  | .ok rest k => .ok (cs ++ rest) k
  | .error e k => .error e k

/-- Delivers characters up to the first one that satisfies `stop`, which `last` says what to do
about. -/
def takeTo (last : Char → Cursor → Cursor) (stop : Char → Bool) (k : Cursor) :
    EStateM.Result Cause Cursor (List Char) :=
  match _h : next k with
  | .error e k₁ => .error e k₁
  | .ok none k₁ => .ok [] k₁
  | .ok (some c) k₁ =>
    if stop c then .ok [] (last c k₁) else prepend [c] (takeTo last stop k₁)
termination_by k.size
decreasing_by exact size_lt_of_next _h

/-- Delivers characters up to the first one that satisfies `stop`, which is handed back. -/
def takeUntil (stop : Char → Bool) : Scan (List Char) :=
  takeTo (fun c k => k.handBack c) stop

/-- Delivers characters up to the first one that satisfies `stop`, which is passed over. -/
def takeThrough (stop : Char → Bool) : Scan (List Char) :=
  takeTo (fun _ k => k) stop

/-- Delivers the first character that is no blank, or nothing at the end. -/
def nextForm (k : Cursor) : EStateM.Result Cause Cursor (Option Char) :=
  match _h : next k with
  | .error e k₁ => .error e k₁
  | .ok none k₁ => .ok none k₁
  | .ok (some c) k₁ => if Text.isBlank c then nextForm k₁ else .ok (some c) k₁
termination_by k.size
decreasing_by exact size_lt_of_next _h

end Cursor

end FormTree
