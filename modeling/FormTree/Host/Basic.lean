import FormTree.Host.DataReader
import FormTree.Host.Record
import FormTree.Host.Resolver

/-!
# Hosts

What reading consults and does not decide itself: namespaces, the engine behind pattern literals,
data readers, record types, and whether the reader may evaluate. The default host is given for every
**engine** that compiles regular expressions; nothing is assumed of it.
-/

namespace FormTree

/-- Whether the reader may evaluate. -/
inductive EvalPolicy where
  /-- evaluation marks and records are read -/
  | enabled
  /-- evaluation marks and records are refused -/
  | disabled
  /-- all reading is refused -/
  | unknown
  deriving DecidableEq, Repr, Inhabited

/-- What reading consults. -/
structure Host where
  resolver : Resolver
  /-- the form of a pattern literal, or why its source is no pattern -/
  patterns : String → Except String Form
  dataReaders : DataReaders
  /-- record types by name, newest first -/
  records : List (Symbol × RecordType)
  evaluation : EvalPolicy

/-- What compiles regular expressions: whether a source is one, or why it is none. What a regular
expression matches is never asked. -/
abbrev RegexEngine := String → Except String Unit

/-- The engine that takes every source for a regular expression. Examples run with it. -/
def RegexEngine.lenient : RegexEngine := fun _ => .ok ()

namespace Host

/-- The pattern of a regular expression that the engine compiles. -/
def compilePattern (regex : RegexEngine) (source : String) : Except String Form :=
  (regex source).map fun _ => .pattern source true

/-- Whatever the engine, what it makes of a source is the pattern with that source. -/
theorem eq_pattern_of_compilePattern {regex : RegexEngine} {source : String} {f : Form}
    (h : compilePattern regex source = .ok f) : f = .pattern source true := by
  rw [compilePattern] at h
  rcases hregex : regex source with message | ⟨⟩
  · rw [hregex] at h
    cases h
  · rw [hregex] at h
    exact (Except.ok.inj h).symm

/-- The default host, with an engine for regular expressions. -/
def standard (regex : RegexEngine) : Host where
  resolver := .standard
  patterns := compilePattern regex
  dataReaders := .standard
  records := []
  evaluation := .enabled

/-- The default host lets the reader read. -/
theorem evaluation_standard_ne_unknown (regex : RegexEngine) :
    (standard regex).evaluation ≠ .unknown :=
  EvalPolicy.noConfusion

/-- Registers a record type. -/
def withRecord (h : Host) (name : Symbol) (type : RecordType) : Host :=
  { h with records := (name, type) :: h.records }

/-- The record type of that name. -/
def record? (h : Host) (name : Symbol) : Option RecordType :=
  h.records.lookup name

end Host

end FormTree
