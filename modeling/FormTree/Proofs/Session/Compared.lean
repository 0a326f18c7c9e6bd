import FormTree.Proofs.Reader.Invariant
import FormTree.Proofs.Session.Calls

/-!
# Two sessions compared

Two sessions, in settings that are compared, go side by side as long as their states correspond.
Each call gives answers that correspond: forms that do, the same form that the options have for the
end of input, or errors whose causes and positions do. By induction this holds of any calls made one
after the other, up to the first one that is excused.
-/

namespace FormTree.Session

open Scan.Comparison Read.Comparison

variable {here there : Setting} (C : Read.Comparison here there) {p q : Session}

/-- Whether two sessions are in the settings that are compared, and in corresponding states. -/
structure Compared (p q : Session) : Prop where
  here_eq : p.setting = here
  there_eq : q.setting = there
  state : C.States p.state q.state

/-- Whether the causes and the positions of two errors correspond. -/
structure ErrorsCompared (e f : ReadError) : Prop where
  cause : C.causes e.cause f.cause
  position : C.places e.position f.position

/-- Whether two answers correspond. -/
inductive AnswersCompared : Option Form → Option Form → Prop
  | none : AnswersCompared none none
  | form {f g : Form} (h : C.forms f g) : AnswersCompared (some f) (some g)
  /-- what the options have for the end of input is the same form on both sides -/
  | atEnd {f : Form} (h : here.options.atEnd = some f) : AnswersCompared (some f) (some f)

/-- Whether two calls on corresponding sessions accord. -/
abbrev CallsAgree {α β : Type} (R : α → β → Prop) (m : Call α) (n : Call β) : Prop :=
  InAccord (fun e => C.excused e.cause) (Compared C) (ErrorsCompared C) (Compared C) R m n

/-- Whether some calls are answered correspondingly, and leave corresponding sessions. -/
structure SideBySide (p q : Session) (rs : List Request) : Prop where
  answers : List.Forall₂ (ExceptRel (ErrorsCompared C) (AnswersCompared C)) (p.answers rs)
    (q.answers rs)
  after : Compared C (p.after rs) (q.after rs)

variable {C}

/-- A first call, and then others, run side by side. -/
theorem SideBySide.cons {r : Request} {rs : List Request}
    (hrs : SideBySide C (stateOf (call r p)) (stateOf (call r q)) rs)
    (hr : ExceptRel (ErrorsCompared C) (AnswersCompared C) (answer (call r p))
      (answer (call r q))) : SideBySide C p q (r :: rs) :=
  ⟨.cons hr hrs.answers, hrs.after⟩

/-- Sessions with states that correspond are compared. -/
theorem Compared.withState {s t : State} (h : Compared C p q) (hst : C.States s t) :
    Compared C { p with state := s } { q with state := t } :=
  ⟨h.here_eq, h.there_eq, hst⟩

theorem fail_agrees {α β : Type} {R : α → β → Prop} {e f : Cause} (hef : C.causes e f) :
    CallsAgree C R (fail e) (fail f) :=
  fun _ _ h => .error ⟨hef, C.position h.state.cursor⟩ h

/-- **Reading agrees** in two sessions that are compared. -/
theorem readOpt_agrees : CallsAgree C (Option.Rel C.forms) readOpt readOpt := by
  intro p q h
  have hpolicy : p.host.evaluation = q.host.evaluation := by
    have heq := C.evaluation_eq
    rwa [← h.here_eq, ← h.there_eq] at heq
  have hreader : p.reader = q.reader := by
    unfold reader
    rw [h.state.remaining_eq]
  have hr : Accords C.excused C.causes C.States C.Outcomes
      (p.reader.run here none p.state) (p.reader.run there none q.state) :=
    FormReader.agree_nesting _ none _ _ h.state
  unfold readOpt
  rw [hpolicy, ← hreader, h.here_eq, h.there_eq]
  split
  · exact fail_agrees (C.causes_refl rfl) _ _ h
  · generalize p.reader.run here none p.state = r at hr
    generalize p.reader.run there none q.state = u at hr
    cases hr with
    | ok hvalue hstate =>
      -- Where there is no form, both runs answer with nothing.
      cases hvalue with
      | form hfg => exact .ok (.some hfg) (h.withState hstate)
      | endOfInput => exact .ok .none (h.withState hstate)
      | closed => exact .ok .none (h.withState hstate)
    | error herror hstate => exact fail_agrees herror _ _ (h.withState hstate)
    | excused hx => exact .excused hx

theorem finish_agrees : CallsAgree C Eq finish finish := by
  intro p q h
  have hr := agrees_nextForm (C := C.toComparison) _ _ h.state.cursor
  unfold finish
  generalize Cursor.nextForm p.state.cursor = r at hr
  generalize Cursor.nextForm q.state.cursor = u at hr
  have hstate {k l : Cursor} (hkl : C.cursors k l) :
      Compared C { p with state.cursor := k } { q with state.cursor := l } :=
    h.withState (h.state.withCursor hkl)
  cases hr with
  | @ok c _ _ _ hvalue hkl =>
    subst hvalue
    cases c with
    | none => exact .ok rfl (hstate hkl)
    | some c => exact fail_agrees (C.causes_refl rfl) _ _ (hstate hkl)
  | error herror hkl => exact .error ⟨herror, C.places_none⟩ (hstate hkl)
  | excused hx => exact .excused hx

/-- So does reading everything ahead, form by form. -/
theorem readAll_agrees : CallsAgree C (List.Forall₂ C.forms) readAll readAll := by
  intro p q h
  -- the induction is on what is left of the second session, as the loop is
  induction hsize : q.size using Nat.strongRecOn generalizing p q with
  | ind n ih =>
    rw [readAll_eq]
    refine (readOpt_agrees p q h).bind fun _ _ p₁ q₁ _ hq hvalue hpq => ?_
    cases hvalue with
    | some hfg =>
      have hrest := ih q₁.size (hsize ▸ size_lt_of_readOpt hq) p₁ q₁ hpq rfl
      exact hrest.map fun _ _ hes => .cons hfg hes
    | none => exact .ok .nil hpq

theorem readToEnd_agrees : CallsAgree C C.forms readToEnd readToEnd :=
  .map readAll_agrees fun _ _ h => C.group h (.inr (.inr (.inr rfl)))

/-- What accords gives the answers of both runs, or an excuse. -/
theorem answer_or_excused {α β : Type} {R : α → β → Prop} {X : ReadError → Prop}
    {E : ReadError → ReadError → Prop} {S : Session → Session → Prop}
    {r : EStateM.Result ReadError Session α} {u : EStateM.Result ReadError Session β}
    (h : Accords X E S R r u) :
    ExceptRel E R (answer r) (answer u) ∧ S (stateOf r) (stateOf u) ∨
      ∃ e p, r = .error e p ∧ X e := by
  cases h with
  | ok hvalue hstate => exact .inl ⟨.ok hvalue, hstate⟩
  | error herror hstate => exact .inl ⟨.error herror, hstate⟩
  | excused hx => exact .inr ⟨_, _, rfl, hx⟩

section

variable (hend : here.options.atEnd = there.options.atEnd)
include hend

/-- A read that needs a form fails at the end in both, with the same cause. -/
theorem read_agrees :
    CallsAgree C (fun f g => AnswersCompared C (some f) (some g)) read read := by
  refine .bind readOpt_agrees fun f g hfg => ?_
  cases hfg with
  | some hfg => exact .pure (.form hfg)
  | none =>
    refine .bind (R := Compared C) (fun p q h => .ok h h) fun p q h => ?_
    have hp : p.options.atEnd = here.options.atEnd := by rw [← h.here_eq]; rfl
    have hq : q.options.atEnd = here.options.atEnd := by rw [hend, ← h.there_eq]; rfl
    rw [hp, hq]
    cases hatEnd : here.options.atEnd with
    | some f => exact .pure (.atEnd hatEnd)
    | none => exact fail_agrees (C.causes_refl rfl)

/-- The answers to a call on corresponding sessions correspond. -/
theorem call_agrees (r : Request) : CallsAgree C (AnswersCompared C) (call r) (call r) := by
  cases r with
  | read => exact .map (read_agrees hend) fun _ _ h => h
  | readOpt =>
    refine fun p q h => (readOpt_agrees p q h).imp fun _ _ hfg => ?_
    cases hfg with
    | some hfg => exact .form hfg
    | none => exact .none
  | readToEnd => exact .map readToEnd_agrees fun _ _ h => .form h
  | finish => exact .map finish_agrees fun _ _ _ => .none

/-- Any calls on corresponding sessions are answered side by side, at least up to one that is
excused. -/
theorem sideBySide_of_compared (h : Compared C p q) (rs : List Request) :
    SideBySide C p q rs ∨
      ∃ rs₁ r rs₂ e p', rs = rs₁ ++ r :: rs₂ ∧ SideBySide C p q rs₁ ∧
        call r (p.after rs₁) = .error e p' ∧ C.excused e.cause := by
  induction rs generalizing p q with
  | nil => exact .inl ⟨.nil, h⟩
  | cons r rs ih =>
    rcases answer_or_excused (call_agrees hend r p q h) with ⟨hanswer, hstate⟩ | ⟨e, p', hp, hx⟩
    · rcases ih hstate with hrs | ⟨rs₁, r', rs₂, e, p', rfl, hrs₁, herror, hx⟩
      · exact .inl (hrs.cons hanswer)
      · exact .inr ⟨r :: rs₁, r', rs₂, e, p', rfl, hrs₁.cons hanswer, herror, hx⟩
    · exact .inr ⟨[], r, rs, e, p', rfl, ⟨.nil, h⟩, hp, hx⟩

/-- Where nothing is excused, all calls are answered side by side. -/
theorem sideBySide_of_not_excused (hX : ∀ e, ¬ C.excused e) (h : Compared C p q)
    (rs : List Request) : SideBySide C p q rs := by
  rcases sideBySide_of_compared hend h rs with hrs | ⟨_, _, _, e, _, _, _, _, hx⟩
  · exact hrs
  · exact absurd hx (hX e.cause)

end

/-- Sessions that an invariant keeps together, and whose causes are the same, have the same
answers. -/
theorem SideBySide.answers_eq {D : Scan.Comparison} {I : Read.Invariant D.excused here there}
    {hcauses : ∀ e, D.causes e e}
    {hposition : ∀ k l, D.cursors k l → k.position = l.position} {rs : List Request}
    (h : SideBySide (I.toComparison hcauses hposition) p q rs)
    (heq : ∀ e f, D.causes e f → e = f) : p.answers rs = q.answers rs := by
  have hanswers := h.answers.imp (S := Eq) fun a b hab => by
    cases hab with
    | ok hab => cases hab with
      | none => rfl
      | form hfg => rw [hfg.1]
      | atEnd _ => rfl
    | @error e f hef =>
      obtain ⟨cause, position⟩ := e
      obtain ⟨cause', position'⟩ := f
      obtain rfl : cause = cause' := heq _ _ hef.cause
      obtain rfl : position = position' := hef.position
      rfl
  rwa [List.forall₂_eq_eq_eq] at hanswers

end FormTree.Session
