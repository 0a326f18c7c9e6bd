import FormTree.Reader.Level

/-!
# Reading sessions

A session reads forms one after the other from one source. Errors do not end it: the next call goes
on with what is left, in the scopes and with the nesting budget that the call before it left.
-/

namespace FormTree

/-- How deeply forms may nest. -/
def nestingLimit : Nat := 256

/-- A session: how to read, and what is left to read. -/
structure Session where
  options : Options
  host : Host
  state : State

namespace Session

/-- A session at a cursor. -/
def ofCursor (cursor : Cursor) (options : Options) (host : Host) : Session :=
  ⟨options, host, ⟨cursor, .none, nestingLimit, 0⟩⟩

/-- A session on a text, with the default host. -/
def ofText (regex : RegexEngine) (text : String) (options : Options) : Session :=
  ofCursor (.ofText text) options (.standard regex)

/-- A call on a session. -/
abbrev Call (α : Type) := EStateM ReadError Session α

/-- How much is left to read. -/
def size (p : Session) : Nat := p.state.size

/-- What reading does not change. -/
def setting (p : Session) : Setting := ⟨p.options, p.host⟩

/-- What reads the forms of a session, with a level for each step of its budget. -/
def reader (p : Session) : FormReader := .nesting (p.state.remaining + 1)

/-- Where the session is in its source. -/
def position (p : Session) : Option Position := p.state.cursor.position

/-- Fails here. -/
def fail {α : Type} (cause : Cause) : Call α := fun p =>
  .error ⟨cause, p.position⟩ p

/-- Reads one form, or nothing at the end of input. -/
def readOpt : Call (Option Form) := fun p =>
  if p.host.evaluation = .unknown then fail .readingDisallowed p
  else
    match p.reader.run p.setting none p.state with
    | .ok (.form f) s => .ok (some f) { p with state := s }
    | .ok _ s => .ok none { p with state := s }
    | .error cause s => fail cause { p with state := s }

/-- Reads one form. At the end of input this gives what the options have for it, or fails. -/
def read : Call Form := do
  match ← readOpt with
  | some f => return f
  | none =>
    match (← get).options.atEnd with
    | some f => return f
    | none => fail .endOfInput

/-- Where a call gives a form, the levels of the session have read it. -/
theorem exists_run_of_readOpt_some {p q : Session} {f : Form} (h : readOpt p = .ok (some f) q) :
    p.host.evaluation ≠ .unknown ∧
      ∃ s, p.reader.run p.setting none p.state = .ok (.form f) s ∧ q = { p with state := s } := by
  unfold readOpt at h
  split at h
  · cases h
  · refine ⟨‹_›, ?_⟩
    split at h
    · rename_i s hrun
      cases h
      exact ⟨s, hrun, rfl⟩
    · cases h
    · cases h

/-- A form that is read takes a character at least. -/
theorem size_lt_of_readOpt {p p' : Session} {f : Form} (h : readOpt p = .ok (some f) p') :
    p'.size < p.size := by
  obtain ⟨-, s, hrun, rfl⟩ := exists_run_of_readOpt_some h
  have hs := p.reader.advances p.setting none p.state
  rw [hrun] at hs
  exact hs.1

/-- Reads forms up to the end of input. -/
def readAll (p : Session) : EStateM.Result ReadError Session (List Form) :=
  match _h : readOpt p with
  | .ok (some f) p₁ =>
    match readAll p₁ with
    | .ok fs p₂ => .ok (f :: fs) p₂
    | .error e p₂ => .error e p₂
  | .ok none p₁ => .ok [] p₁
  | .error e p₁ => .error e p₁
termination_by p.size
decreasing_by exact size_lt_of_readOpt _h

/-- Reads all that is left as one file. -/
def readToEnd : Call Form :=
  Form.file <$> (readAll : Call (List Form))

/-- Checks that nothing but blanks is left. A character found is passed over, and a fault of the
source is passed on without a position. -/
def finish : Call Unit := fun p =>
  match Cursor.nextForm p.state.cursor with
  | .ok none k => .ok () { p with state.cursor := k }
  | .ok (some _) k => fail .trailingCharacters { p with state.cursor := k }
  | .error cause k => .error ⟨cause, none⟩ { p with state.cursor := k }

/-- Reads the one form that is left. -/
def readOnly : Call Form := do
  let f ← read
  finish
  return f

end Session

/-- The one form of a text, or why it cannot be read. -/
def Form.ofText? (regex : RegexEngine) (text : String) (options : Options) :
    Except ReadError Form :=
  match Session.readOnly (.ofText regex text options) with
  | .ok f _ => .ok f
  | .error e _ => .error e

end FormTree
