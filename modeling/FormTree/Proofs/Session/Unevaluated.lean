import FormTree.Proofs.Form.EvalFree
import FormTree.Proofs.Session.Legal

/-!
# Reading without evaluation

A host that refuses to evaluate has no way around that, as long as its data readers and its pattern
engine do not bring in marks to evaluate by themselves. No form that is read has such a mark at any
depth, and no record type is ever asked: with any other record types every call is answered in the
same way.
-/

namespace FormTree

/-- Whether a host brings in no marks to evaluate: its patterns have none, and its data readers give
none for a form that has none. -/
structure Host.BringsNoEval (host : Host) : Prop where
  patterns : ∀ {source : String} {f : Form}, host.patterns source = .ok f → f.EvalFree
  dataReaders : ∀ {tag : Symbol} {f g : Form}, f.EvalFree →
    host.dataReaders.read? tag f = some (.ok g) → g.EvalFree

/-- The default registries and the default engine bring in no marks to evaluate: they keep what they
are asked about. -/
theorem Host.BringsNoEval.standard (regex : RegexEngine) (evaluation : EvalPolicy) :
    BringsNoEval { Host.standard regex with evaluation := evaluation } where
  patterns := by
    intro source f h
    rw [Host.eq_pattern_of_compilePattern h]
    exact .atom rfl
  dataReaders := by
    intro tag f g hf h
    obtain ⟨name, what, valid, -, rfl, hchecked⟩ := Level.exists_checked_of_read? h
    obtain ⟨-, rfl⟩ := Level.exists_string_of_checked hchecked.symm
    exact .tagged _ hf

/-- A setting with other record types. -/
def Setting.withRecords (setting : Setting) (records : List (Symbol × RecordType)) : Setting :=
  { setting with host := { setting.host with records := records } }

/-- Records are no part of how patterns are read. -/
theorem Setting.patterns_withRecords (setting : Setting) (records : List (Symbol × RecordType)) :
    setting.host.patterns = (setting.withRecords records).host.patterns := rfl

namespace Level

variable {setting : Setting} (hpolicy : setting.host.evaluation = .disabled)
include hpolicy

/-- A record literal is refused before its type is looked up. -/
theorem record_of_disabled (name : Symbol) (f : Form) :
    record setting.host name f = .error .evalNotAllowed := by
  rw [record, if_pos]
  rw [hpolicy]
  rfl

/-- A tagged form is the same for any record types, and has no mark to evaluate if its form has
none. -/
theorem sameAnswer_interpretTagged_withRecords (hhost : setting.host.BringsNoEval)
    (records : List (Symbol × RecordType)) (inConditional : Bool) (tag : Symbol) {f : Form}
    (hf : f.EvalFree) :
    SameAnswer (fun _ => False) Form.EvalFree (interpretTagged setting inConditional tag f)
      (interpretTagged (setting.withRecords records) inConditional tag f) := by
  have hthere : (setting.withRecords records).host.evaluation = .disabled := hpolicy
  have hanswer : interpretTagged (setting.withRecords records) inConditional tag f =
      interpretTagged setting inConditional tag f := by
    unfold interpretTagged
    rw [record_of_disabled hpolicy, record_of_disabled hthere]
    rfl
  rw [hanswer]
  refine .refl fun g h => ?_
  unfold interpretTagged at h
  split at h
  · cases h
    exact .tagged tag hf
  split at h
  · rw [record_of_disabled hpolicy] at h
    cases h
  · split at h <;> cases h
    exact hhost.dataReaders hf ‹_›

end Level

/-- What readings have in common that refuse to evaluate, whatever the record types are. -/
def Read.Invariant.unevaluated {setting : Setting}
    (hpolicy : setting.host.evaluation = .disabled) (hhost : setting.host.BringsNoEval)
    (records : List (Symbol × RecordType)) :
    Read.Invariant (fun _ => False) setting (setting.withRecords records) where
  trivia_eq := rfl
  evaluation_eq := rfl
  resolver_eq := rfl
  scopes _ := True
  forms := Form.EvalFree
  conditionals := .inl Iff.rfl
  patterns_eq := setting.patterns_withRecords records
  patterns := hhost.patterns
  tagged tag _ hf := Level.sameAnswer_interpretTagged_withRecords hpolicy hhost records _ tag hf
  enter _ _ := trivial
  gensyms _ _ := trivial
  hereditary := Form.EvalFree.hereditary (by rw [hpolicy]; exact nofun)

namespace Session

/-- A form that a call gives has the property that an invariant of the session says of forms, or is
what the options have for the end of input. -/
theorem forms_of_call {X : Cause → Prop} {here there : Setting} {I : Read.Invariant X here there}
    (hend : here.options.atEnd = there.options.atEnd) {p q p' : Session} {r : Request} {f : Form}
    (h : Compared I.comparison p q) (hcall : call r p = .ok (some f) p') :
    I.forms f ∨ r = .read ∧ here.options.atEnd = some f := by
  cases r with
  | read =>
    have hagrees := call_agrees hend .read p q h
    rw [hcall] at hagrees
    obtain ⟨_, _, -, hanswer, -⟩ := hagrees.exists_of_ok
    cases hanswer with
    | form hfg => exact .inl hfg.2
    | atEnd hatEnd => exact .inr ⟨rfl, hatEnd⟩
  | readOpt =>
    have hagrees := readOpt_agrees p q h
    rw [show readOpt p = _ from hcall] at hagrees
    obtain ⟨_, _, -, hanswer, -⟩ := hagrees.exists_of_ok
    cases hanswer with
    | some hfg => exact .inl hfg.2
  | readToEnd =>
    obtain ⟨g, hg, hgf⟩ := map_eq_ok.1 hcall
    cases hgf
    have hagrees := readToEnd_agrees p q h
    rw [hg] at hagrees
    obtain ⟨_, _, -, hfg, -⟩ := hagrees.exists_of_ok
    exact .inl hfg.2
  | finish =>
    obtain ⟨_, -, hnone⟩ := map_eq_ok.1 hcall
    cases hnone

/-- **A host that refuses to evaluate does not evaluate.** Whatever is read and whatever calls came
before, a form that a call gives has no mark to evaluate at any depth, unless the options have it
for the end of input; and with any other record types all calls are answered in the same way, so
that none is ever asked for a record. -/
theorem evalFree_of_call (k : Cursor) (options : Options) (host : Host)
    (hpolicy : host.evaluation = .disabled) (hhost : host.BringsNoEval)
    (records : List (Symbol × RecordType)) (rs : List Request) :
    let p := ofCursor k options host
    (∀ r f q, call r (p.after rs) = .ok (some f) q →
        f.EvalFree ∨ r = .read ∧ options.atEnd = some f) ∧
      (ofCursor k options { host with records := records }).answers rs = p.answers rs := by
  intro p
  have hpolicy : p.setting.host.evaluation = .disabled := hpolicy
  have hcompared : Compared (Read.Invariant.unevaluated hpolicy hhost records).comparison p
      (ofCursor k options { host with records := records }) :=
    ⟨rfl, rfl, ⟨rfl, ⟨rfl, trivial⟩, rfl, rfl⟩⟩
  have hend : p.setting.options.atEnd = (p.setting.withRecords records).options.atEnd := rfl
  have hside := sideBySide_of_not_excused hend (fun _ => False.elim) hcompared rs
  exact ⟨fun r f q h => forms_of_call hend hside.after h, (hside.answers_eq fun _ _ h => h).symm⟩

/-- A form to evaluate and a record are refused, be the type of the record known or not; the vector
after them is read. -/
theorem evalFree_of_call_vector :
    let host := { Host.standard .lenient with evaluation := .disabled }
    let k := Cursor.ofText "#=a #user.P [b] [#inst \"2024\"]"
    let p := ofCursor k .standard host
    let rs := [.readOpt, .readOpt, .readOpt]
    host.evaluation = .disabled ∧ host.BringsNoEval ∧
      (∃ f q, call .readOpt (p.after rs) = .ok (some f) q ∧ f.EvalFree) ∧
      (ofCursor k .standard { host with records := [(.parse "user.P", .named ["x"])] }).answers rs =
        p.answers rs := by
  intro host k p rs
  have hhost : host.BringsNoEval := .standard .lenient .disabled
  obtain ⟨hforms, hanswers⟩ := evalFree_of_call k .standard host rfl hhost
    [(.parse "user.P", .named ["x"])] rs
  obtain ⟨f, q, h⟩ : ∃ f q, call .readOpt (p.after rs) = .ok (some f) q :=
    exists_of_gives_isSome (by decide +kernel)
  refine ⟨rfl, hhost, ⟨f, q, h, ?_⟩, hanswers⟩
  exact (hforms .readOpt f q h).resolve_right fun hread => Request.noConfusion hread.1

end Session

end FormTree
