import FormTree.Proofs.Form.Alike
import FormTree.Proofs.Source.Blind
import FormTree.Reader.Step

/-!
# States that differ in positions and generated names only

Two states are **alike** if the same is left to read, in scopes that are alike and with the same
budget. Where the cursor stands and how many symbols have been generated may differ. What a level
finds or a step gives is alike if the forms are; causes are alike if they are the same, but for the
line in the one that tells where a sequence began. A host is **blind** if its answers to alike forms
are alike.
-/

namespace FormTree

/-- Whether two causes are the same up to the line in which a sequence began. -/
inductive CauseAlike : Cause → Cause → Prop
  | refl (e : Cause) : CauseAlike e e
  | endInSequence {l m : Option Nat} (h : l.isSome = m.isSome) :
    CauseAlike (.endInSequence l) (.endInSequence m)

/-- Whether two scopes are the same up to generated names. -/
structure Scopes.Alike (s t : Scopes) : Prop where
  gensyms : List.Forall₂ (List.Forall₂ GensymAlike) s.gensyms t.gensyms
  inFunction_eq : s.inFunction = t.inFunction
  conditionals_eq : s.conditionals = t.conditionals

/-- Whether two states are the same up to positions and generated names. -/
structure State.Alike (s t : State) : Prop where
  cursor : s.cursor.Alike t.cursor
  scopes : s.scopes.Alike t.scopes
  remaining_eq : s.remaining = t.remaining

namespace Scopes.Alike

variable {s t : Scopes}

theorem refl (s : Scopes) : s.Alike s :=
  ⟨List.forall₂_same.2 fun _ _ => List.forall₂_same.2 fun _ _ => .refl _, rfl, rfl⟩

/-- Scopes that correspond still do when one more is entered: what is registered there begins
alike. -/
theorem enter (h : s.Alike t) (scope : Scope) : (s.enter scope).Alike (t.enter scope) := by
  cases scope with
  | backquote => exact ⟨.cons .nil h.gensyms, h.inFunction_eq, h.conditionals_eq⟩
  | function => exact ⟨h.gensyms, rfl, h.conditionals_eq⟩
  | conditional => exact ⟨h.gensyms, h.inFunction_eq, congrArg (· + 1) h.conditionals_eq⟩

end Scopes.Alike

/-! ### Hosts -/

/-- Whether two answers of a collaborator are alike: forms that are, or the same refusal. -/
abbrev ReplyAlike : Except String Form → Except String Form → Prop := ExceptRel Eq Alike

/-- Whether the answers of data readers ignore positions and generated names. -/
def DataReaders.IsBlind (r : DataReaders) : Prop :=
  ∀ tag {f g : Form}, Alike f g → Option.Rel ReplyAlike (r.read? tag f) (r.read? tag g)

/-- Whether two entries of a record literal have the same key and values that are alike. -/
def EntryAlike (d e : Keyword × Form) : Prop := d.1 = e.1 ∧ Alike d.2 e.2

/-- Whether the records made ignore positions and generated names. -/
structure RecordType.IsBlind (type : RecordType) : Prop where
  ofFields : ∀ name {es fs : List Form}, AlikeAll es fs →
    ReplyAlike (type.ofFields name es) (type.ofFields name fs)
  ofEntries : ∀ name {ds es : List (Keyword × Form)}, List.Forall₂ EntryAlike ds es →
    ReplyAlike (type.ofEntries name ds) (type.ofEntries name es)

/-- Whether the answers of a host ignore positions and generated names. -/
structure Host.IsBlind (host : Host) : Prop where
  dataReaders : host.dataReaders.IsBlind
  records : ∀ name type, host.record? name = some type → type.IsBlind

/-- A checked literal is kept or refused for its text alone. -/
theorem DataReader.replyAlike_checked (tag what : String) (valid : String → Bool) {f g : Form}
    (h : FormTree.Alike f g) :
    ReplyAlike (DataReader.checked tag what valid f) (DataReader.checked tag what valid g) := by
  cases h with
  | string s =>
    unfold DataReader.checked
    dsimp only
    split
    · exact .ok (.refl _)
    · exact .error rfl
  | _ => exact .error rfl

/-- The readers of instants and identifiers look at the text of their literal only. -/
theorem DataReaders.isBlind_standard : DataReaders.standard.IsBlind := by
  intro tag f g h
  unfold read?
  cases hreader : standard.defaults.lookup tag with
  | none => exact .none
  | some reader =>
    refine .some ?_
    simp only [standard, List.lookup_cons, List.lookup_nil] at hreader
    split at hreader
    · cases hreader
      exact DataReader.replyAlike_checked _ _ _ h
    · split at hreader <;> cases hreader
      exact DataReader.replyAlike_checked _ _ _ h

/-- The default host looks at neither positions nor generated names. -/
theorem Host.isBlind_standard (regex : RegexEngine) : (Host.standard regex).IsBlind :=
  ⟨DataReaders.isBlind_standard, fun _ _ h => nomatch h⟩

end FormTree
