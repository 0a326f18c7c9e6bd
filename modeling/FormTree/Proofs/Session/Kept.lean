import FormTree.Proofs.Session.Calls
import FormTree.Proofs.Reader.Invariant
import FormTree.Proofs.Reader.Yields
import FormTree.Proofs.Source.Pending

/-!
# Kept conditionals consult no registry

Where tagged forms inside of conditionals are kept, nobody is asked about them. So what is read of a
conditional does not depend on data readers and record types: inside of it every scope that forms
are read in is that of a conditional, however they nest, and this is all that is looked at before a
tagged form is kept. Two hosts that differ in their registries only give the same conditional, or
the same error.
-/

namespace FormTree

open Cursor Read

/-- A host with other data readers and other record types. -/
def Host.withRegistries (host : Host) (readers : DataReaders)
    (records : List (Symbol × RecordType)) : Host :=
  { host with dataReaders := readers, records := records }

/-- The setting with other data readers and other record types. -/
def Setting.withRegistries (setting : Setting) (readers : DataReaders)
    (records : List (Symbol × RecordType)) : Setting :=
  { setting with host := setting.host.withRegistries readers records }

/-- Registries are no part of how patterns are read. -/
theorem Setting.patterns_withRegistries (setting : Setting) (readers : DataReaders)
    (records : List (Symbol × RecordType)) :
    setting.host.patterns = (setting.withRegistries readers records).host.patterns := rfl

namespace Level

variable {setting : Setting}

/-- Inside of a conditional a tagged form is kept before anyone is asked about it. -/
theorem interpretTagged_of_inConditional (hmode : setting.options.conditionals = .preserve)
    {a : Scopes} (ha : a.inConditional = true) (tag : Symbol) (f : Form) :
    interpretTagged setting a.inConditional tag f = .ok (.tagged tag f) := by
  have hkeep : (a.inConditional && setting.options.conditionals = .preserve) = true := by
    simp [ha, hmode]
  rw [interpretTagged, if_pos hkeep]

end Level

/-- What stands in a conditional is inside of one. -/
theorem Scopes.inConditional_enter (a : Scopes) : (a.enter .conditional).inConditional = true :=
  decide_eq_true (Nat.succ_pos a.conditionals)

/-- What readings inside of a conditional have in common, whatever the registries are. -/
def Read.Invariant.registries {setting : Setting}
    (hmode : setting.options.conditionals = .preserve) (readers : DataReaders)
    (records : List (Symbol × RecordType)) :
    Read.Invariant (fun _ => False) setting (setting.withRegistries readers records) where
  trivia_eq := rfl
  evaluation_eq := rfl
  resolver_eq := rfl
  scopes a := a.inConditional = true
  forms _ := True
  conditionals := .inl Iff.rfl
  patterns_eq := setting.patterns_withRegistries readers records
  patterns _ := trivial
  tagged {a f} tag ha _ := by
    have hthere : (setting.withRegistries readers records).options.conditionals = .preserve := hmode
    rw [Level.interpretTagged_of_inConditional hmode ha,
      Level.interpretTagged_of_inConditional hthere ha]
    refine .ok ?_
    trivial
  enter {a} scope ha := by
    cases scope with
    | conditional => exact a.inConditional_enter
    | _ => exact ha
  gensyms _ ha := ha
  hereditary := .trivial setting

namespace Level

variable {setting : Setting} (hmode : setting.options.conditionals = .preserve)
  (readers : DataReaders) (records : List (Symbol × RecordType)) (n : Nat)
include hmode

/-- What keeps readings together inside of a conditional makes them the same there. -/
theorem within_conditional_of_agree {m m' : Read Step}
    (h : (Invariant.registries hmode readers records).comparison.Agree
      (Invariant.registries hmode readers records).comparison.Steps m m') :
    within .conditional m' = within .conditional m := by
  funext s
  have hrun := h { s with scopes := s.scopes.enter .conditional }
    { s with scopes := s.scopes.enter .conditional }
    ⟨rfl, ⟨rfl, s.scopes.inConditional_enter⟩, rfl, rfl⟩
  unfold within
  rw [Invariant.eq_of_accords ?_ hrun]
  rintro _ _ (⟨rfl, -⟩ | -) <;> rfl

/-- A conditional is read in the same way whatever the registries are, wherever it stands: what is
inside of it stands in a conditional. -/
theorem conditional_withRegistries :
    conditional (.nesting n) (setting.withRegistries readers records) =
      conditional (.nesting n) setting := by
  unfold conditional
  refine if_congr Iff.rfl rfl (bind_congr fun (c, splicing) => ?_)
  refine if_congr Iff.rfl rfl (bind_congr fun position => ?_)
  exact within_conditional_of_agree hmode readers records
    (agree_conditionalForms (FormReader.agree_nesting n) splicing rfl)

omit hmode in
/-- A conditional gives a form, if it gives anything. -/
theorem exists_form_of_conditional {below : FormReader} {s t : State} {step : Step}
    (h : conditional below setting s = .ok step t) : ∃ f, step = .form f := by
  unfold conditional at h
  split at h
  · cases h
  obtain ⟨⟨c, splicing⟩, s₁, -, h⟩ := bind_eq_ok.1 h
  dsimp only at h
  split at h
  · cases h
  obtain ⟨position, s₂, -, h⟩ := bind_eq_ok.1 h
  obtain ⟨s₃, h, -⟩ := mapState_eq_ok.1 h
  obtain ⟨es, s₄, -, h⟩ := bind_eq_ok.1 h
  rcases hfault : conditionalFault? splicing es with - | fault <;> rw [hfault] at h <;> cases h
  exact ⟨_, rfl⟩

omit hmode in
/-- Behind a hash sign and a question mark a conditional is read. -/
theorem start_eq_conditional (below : FormReader) (s : State) {rest : List Item}
    (hs : s.cursor.pending = .ok '?' :: rest) :
    start below setting '#' s =
      conditional below setting { s with cursor := s.cursor.past '?' rest } := by
  have hstart : start below setting '#' = hash below setting := rfl
  have hscan : scan next s = .ok (some '?') { s with cursor := s.cursor.past '?' rest } :=
    scan_eq_ok.2 ⟨_, by rw [next_eq, hs], rfl⟩
  have hnext : nextCharacter s = .ok '?' { s with cursor := s.cursor.past '?' rest } := by
    rw [nextCharacter, bind_apply, hscan]
    rfl
  rw [hstart, hash, bind_apply, hnext]
  rfl

/-- What begins like a conditional is read in the same way whatever the registries are. -/
theorem read_withRegistries {s : State} {rest : List Item}
    (hs : s.cursor.pending = .ok '#' :: .ok '?' :: rest) :
    read (.nesting n) (setting.withRegistries readers records) none s =
      read (.nesting n) setting none s := by
  have hnext : nextForm s.cursor = .ok (some '#') (s.cursor.past '#' (.ok '?' :: rest)) := by
    rw [nextForm.eq_def, next_eq, hs]
    rfl
  have hscan : scan nextForm s =
      .ok (some '#') { s with cursor := s.cursor.past '#' (.ok '?' :: rest) } :=
    scan_eq_ok.2 ⟨_, hnext, rfl⟩
  rw [read.eq_def, read.eq_def (.nesting n) setting, hscan]
  dsimp only
  rw [start_eq_conditional _ _ rfl, start_eq_conditional _ _ rfl,
    conditional_withRegistries hmode readers records n]
  generalize hr : conditional (.nesting n) setting _ = r
  rcases r with ⟨step, t⟩ | ⟨e, t⟩
  · obtain ⟨f, rfl⟩ := exists_form_of_conditional hr
    rfl
  · rfl

end Level

namespace Session

/-- A session on a cursor that stands before a conditional. -/
theorem readOpt_ofCursor_withRegistries {k : Cursor} {options : Options} (host : Host)
    (hmode : options.conditionals = .preserve) (readers : DataReaders)
    (records : List (Symbol × RecordType)) {rest : List Item}
    (hk : k.pending = .ok '#' :: .ok '?' :: rest) :
    let p := ofCursor k options host
    let q := ofCursor k options (host.withRegistries readers records)
    answer (readOpt q) = answer (readOpt p) ∧
      (stateOf (readOpt q)).state = (stateOf (readOpt p)).state := by
  intro p q
  have hmode : p.setting.options.conditionals = .preserve := hmode
  have hrun : q.reader.run q.setting none q.state = p.reader.run p.setting none p.state :=
    Level.read_withRegistries hmode readers records nestingLimit hk
  have hpolicy : q.host.evaluation = p.host.evaluation := rfl
  unfold readOpt
  rw [hpolicy, hrun]
  split
  · exact ⟨rfl, rfl⟩
  · split <;> exact ⟨rfl, rfl⟩

/-- **Kept conditionals consult no registry.** Where tagged forms inside of conditionals are kept, a
text that begins with a conditional, splicing or not, gives the same form or error whatever the data
readers and the record types of the host are, and the same is left to read. -/
theorem readOpt_conditional_withRegistries (text : String) (options : Options) (host : Host)
    (readers : DataReaders) (records : List (Symbol × RecordType)) :
    let kept := { options with conditionals := .preserve }
    let p := ofCursor (.ofText ("#?" ++ text)) kept host
    let q := ofCursor (.ofText ("#?" ++ text)) kept (host.withRegistries readers records)
    answer (readOpt q) = answer (readOpt p) ∧
      (stateOf (readOpt q)).state = (stateOf (readOpt p)).state := by
  have hpending : (Cursor.ofText ("#?" ++ text)).pending =
      .ok '#' :: .ok '?' :: text.toList.map .ok := by
    change ("#?" ++ text).toList.map Except.ok = _
    rw [String.toList_append]
    rfl
  exact readOpt_ofCursor_withRegistries host rfl readers records hpending

/-- Where conditionals are only read, the data readers are asked. -/
example :
    (match readOpt (ofCursor (.ofText "#?(:clj #inst \"2024\")")
        { Options.standard with conditionals := .allow } (.standard .lenient)) with
      | .ok _ _ => true
      | .error _ _ => false) = true ∧
    (match readOpt (ofCursor (.ofText "#?(:clj #inst \"2024\")")
        { Options.standard with conditionals := .allow }
          ((Host.standard .lenient).withRegistries .empty [])) with
      | .ok _ _ => true
      | .error _ _ => false) = false := by
  decide +kernel

end Session

end FormTree
