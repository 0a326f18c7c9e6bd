import FormTree.Proofs.Reader.Compared

/-!
# Readings that go the same way

Two settings may differ in something that reading never comes to. Then readings in the two of them
are the same, and what keeps them together is an **invariant**: the scopes that forms are read in
and the forms that are read have some property, and what has it is treated alike in both settings.
An invariant is closed under what a level does to scopes and under what it builds from forms, so
that it makes a comparison of the two readings in which all but their cursors is equal.
-/

namespace FormTree

/-- Whether two answers are the same, with a form in `F` if there is one, or the first one is a
failure in `X`. -/
inductive SameAnswer (X : Cause → Prop) (F : Form → Prop) :
    Except Cause Form → Except Cause Form → Prop
  | ok {f : Form} (h : F f) : SameAnswer X F (.ok f) (.ok f)
  | error (e : Cause) : SameAnswer X F (.error e) (.error e)
  | excused {e : Cause} {r : Except Cause Form} (h : X e) : SameAnswer X F (.error e) r

/-- An answer is the same as itself, if the form it gives has the property. -/
theorem SameAnswer.refl {X : Cause → Prop} {F : Form → Prop} {r : Except Cause Form}
    (h : ∀ f, r = .ok f → F f) : SameAnswer X F r r := by
  rcases r with e | f
  · exact .error e
  · exact .ok (h f rfl)

/-- Whether a property holds of what a level builds from forms that have it. Marks to evaluate are
built only where they are allowed. -/
structure Form.Hereditary (evaluation : EvalPolicy) (F : Form → Prop) : Prop where
  atom : ∀ {f : Form}, f.isAtom = true → F f
  marked : ∀ {f : Form} (mark : Mark), (mark = .eval → evaluation = .enabled) → F f →
    F (.marked mark f)
  annotated : ∀ {note object : Form} (kind : NoteKind) (position : Option Position), F note →
    F object → F (.annotated kind note object position)
  backquote : ∀ {f g : Form} {gensyms : List (Symbol × Symbol)}, F f →
    Level.backquote f gensyms = .ok g → F g
  list : ∀ {es : List Form} (position : Option Position), (∀ f ∈ es, F f) →
    F (.list (if es.isEmpty then .empty else .at? position) es)
  group : ∀ {es : List Form} (g : Group), (∀ f ∈ es, F f) → F (.group g es)

/-- What can be said of every form is hereditary. -/
theorem Form.Hereditary.trivial (setting : Setting) :
    Hereditary setting.host.evaluation fun _ => True where
  atom _ := .intro
  marked _ _ _ := .intro
  annotated _ _ _ _ := .intro
  backquote _ _ := .intro
  list _ _ := .intro
  group _ _ := .intro

/-- A property of scopes and one of forms that readings in two settings keep, and that keeps them
together unless the first one fails with an excuse. -/
structure Read.Invariant (excused : Cause → Prop) (here there : Setting) extends
    Setting.Matches here there where
  scopes : Scopes → Prop
  forms : Form → Prop
  conditionals : (here.options.conditionals = .disabled ↔ there.options.conditionals = .disabled) ∨
    here.options.conditionals = .disabled ∧ excused .conditionalNotAllowed
  patterns_eq : here.host.patterns = there.host.patterns
  patterns : ∀ {source : String} {f : Form}, here.host.patterns source = .ok f → forms f
  tagged : ∀ {a : Scopes} {f : Form} (tag : Symbol), scopes a → forms f →
    SameAnswer excused forms (Level.interpretTagged here a.inConditional tag f)
      (Level.interpretTagged there a.inConditional tag f)
  enter : ∀ {a : Scopes} (scope : Scope), scopes a → scopes (a.enter scope)
  gensyms : ∀ {a : Scopes} (gensyms : List (List (Symbol × Symbol))), scopes a →
    scopes { a with gensyms }
  hereditary : Form.Hereditary here.host.evaluation forms

namespace Read.Invariant

variable {X : Cause → Prop} {here there : Setting}

/-- Whether two scopes are the same and have the property. -/
def Scopes (I : Read.Invariant X here there) (a b : FormTree.Scopes) : Prop := a = b ∧ I.scopes a

/-- Whether two forms are the same and have the property. -/
def Forms (I : Read.Invariant X here there) (f g : Form) : Prop := f = g ∧ I.forms f

/-- Sequences that correspond are the same, and all of their forms have the property. -/
theorem eq_and_forall_of_forall₂ {I : Read.Invariant X here there} {es fs : List Form}
    (h : List.Forall₂ I.Forms es fs) :
    es = fs ∧ ∀ f ∈ es, I.forms f := by
  induction h with
  | nil => exact ⟨rfl, nofun⟩
  | cons hfg _ ih =>
    obtain ⟨rfl, hf⟩ := hfg
    obtain ⟨rfl, hes⟩ := ih
    exact ⟨rfl, List.forall_mem_cons.2 ⟨hf, hes⟩⟩

/-- The comparison that an invariant makes, for any correspondence of cursors that shows the same
positions. -/
def toComparison {C : Scan.Comparison} (I : Read.Invariant C.excused here there)
    (hcauses : ∀ e, C.causes e e)
    (hposition : ∀ k l, C.cursors k l → k.position = l.position) : Read.Comparison here there where
  toComparison := C
  toMatches := I.toMatches
  scopes := I.Scopes
  generated := Eq
  places := Eq
  gensyms := Eq
  forms := I.Forms
  conditionals := I.conditionals
  patterns source := by
    rw [← I.patterns_eq]
    rcases hsource : here.host.patterns source with message | f
    · exact .error rfl
    · exact .ok ⟨rfl, I.patterns hsource⟩
  tagged {a b f g} tag hscopes h := by
    obtain ⟨rfl, ha⟩ := hscopes
    obtain ⟨rfl, hf⟩ := h
    have hanswer := I.tagged tag ha hf
    generalize Level.interpretTagged here a.inConditional tag f = r at hanswer
    generalize Level.interpretTagged there a.inConditional tag f = u at hanswer
    cases hanswer with
    | ok h => exact .pure ⟨rfl, h⟩
    | error e => exact .throw (hcauses e)
    | excused h => exact .excused h
  position := hposition _ _
  places_none := rfl
  causes_line h := h ▸ hcauses _
  enter scope h := ⟨congrArg (Scopes.enter · scope) h.1, I.enter scope h.2⟩
  inFunction_eq h := congrArg _ h.1
  takeGensyms {f g} h s t hst := by
    obtain ⟨rfl, -⟩ := h
    obtain ⟨hscopes, hproperty⟩ := hst.scopes
    unfold Level.takeGensyms
    rw [← hscopes, ← hst.generated]
    split
    · exact .ok rfl hst
    · exact .ok rfl ⟨hst.cursor, ⟨by rw [hscopes], I.gensyms _ hproperty⟩, hst.remaining_eq, rfl⟩
  core_eq h := congrArg Form.core h.1
  atom h := ⟨rfl, I.hereditary.atom h⟩
  marked mark hmark h := ⟨congrArg _ h.1, I.hereditary.marked mark hmark h.2⟩
  annotated kind hnote hobject hplaces := by
    obtain ⟨rfl, hnote⟩ := hnote
    obtain ⟨rfl, hobject⟩ := hobject
    exact ⟨congrArg _ hplaces, I.hereditary.annotated kind _ hnote hobject⟩
  backquote {f g ps qs} h hgensyms := by
    obtain ⟨rfl, hf⟩ := h
    subst hgensyms
    rcases hquoted : Level.backquote f ps with e | g
    · exact .error (hcauses e)
    · exact .ok ⟨rfl, I.hereditary.backquote hf hquoted⟩
  list {es fs p q} h hplaces := by
    obtain ⟨rfl, hes⟩ := eq_and_forall_of_forall₂ h
    exact ⟨by rw [hplaces], I.hereditary.list p hes⟩
  group {es fs g} h _ := by
    obtain ⟨rfl, hes⟩ := eq_and_forall_of_forall₂ h
    exact ⟨rfl, I.hereditary.group g hes⟩
  conditional splicing h hplaces := by
    obtain ⟨rfl, hes⟩ := eq_and_forall_of_forall₂ h
    exact ⟨by rw [hplaces], I.hereditary.group _ hes⟩

/-- Where nothing else differs, readings from corresponding cursors go the same way. -/
def refl (X : Cause → Prop) (setting : Setting) : Read.Invariant X setting setting where
  toMatches := .refl setting
  scopes _ := True
  forms _ := True
  conditionals := .inl Iff.rfl
  patterns_eq := rfl
  patterns _ := trivial
  tagged _ _ _ := .refl fun _ _ => trivial
  enter _ _ := trivial
  gensyms _ _ := trivial
  hereditary := .trivial setting

end Read.Invariant

/-- A cursor corresponds to itself. -/
def Scan.Comparison.same (excused : Cause → Prop) : Scan.Comparison where
  cursors := Eq
  causes := Eq
  excused := excused
  causes_refl _ := rfl
  next_accords {k l} h := by
    subst h
    rcases Cursor.next k with ⟨c, k'⟩ | ⟨e, k'⟩
    · exact .ok rfl rfl
    · exact .error rfl rfl
  handBack {k k' l l' c} h hk hl d := by
    subst h
    cases hk.symm.trans hl
    rfl

/-- The comparison that an invariant makes of two readings from the same cursor. -/
def Read.Invariant.comparison {X : Cause → Prop} {here there : Setting}
    (I : Read.Invariant X here there) : Read.Comparison here there :=
  I.toComparison (C := .same X) Eq.refl fun _ _ => congrArg Cursor.position

/-- States that correspond in it are the same. -/
theorem Read.Invariant.state_eq {X : Cause → Prop} {here there : Setting}
    {I : Read.Invariant X here there} {s t : State} (h : I.comparison.States s t) : s = t := by
  obtain ⟨cursor, scopes, remaining, generated⟩ := s
  obtain ⟨_, _, _, _⟩ := t
  obtain ⟨rfl, ⟨rfl, -⟩, rfl, rfl⟩ := h
  rfl

/-- Where nothing is excused, runs that correspond in it are the same. -/
theorem Read.Invariant.eq_of_accords {α : Type} {here there : Setting}
    {I : Read.Invariant (fun _ => False) here there} {R : α → α → Prop}
    (hR : ∀ a b, R a b → a = b) {r u : EStateM.Result Cause State α}
    (h : Accords (fun _ => False) Eq I.comparison.States R r u) : r = u := by
  cases h with
  | ok hvalue hstate => rw [hR _ _ hvalue, state_eq hstate]
  | error herror hstate => rw [herror, state_eq hstate]
  | excused h => exact h.elim

end FormTree
