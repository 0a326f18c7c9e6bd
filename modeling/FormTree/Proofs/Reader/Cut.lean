import FormTree.Proofs.Form.CutOff
import FormTree.Proofs.Reader.Back
import FormTree.Proofs.Reader.Spelled
import FormTree.Proofs.Source.Cut

/-!
# Reading a text that is cut off

What the steps of a level do in a text that is cut off at a blank is compared with what they do in
the longer text. The two runs keep step until the shorter text ends. There a token or number ends in
both; a form that is still waited for is missing in the shorter text, which ends too early; and a
comment may end in the shorter text only. No step fails otherwise in one of the texts alone: its
checks come after it has all of its parts, and they do not look at what a comment says.
-/

namespace FormTree

open Cursor Read

variable {α β : Type} {regex : RegexEngine} {c : Char} {rest : List Char}

/-- Whether two states are the same but for their cursors, and those are in `C`. -/
structure State.Beside (C : Cursor → Cursor → Prop) (s t : State) : Prop where
  cursor : C s.cursor t.cursor
  scopes_eq : s.scopes = t.scopes
  remaining_eq : s.remaining = t.remaining
  generated_eq : s.generated = t.generated

/-- All but the cursors is the same, so that they may be replaced. -/
theorem State.Beside.withCursor {C D : Cursor → Cursor → Prop} {s t : State} {k l : Cursor}
    (h : s.Beside C t) (hkl : D k l) :
    State.Beside D { s with cursor := k } { t with cursor := l } :=
  ⟨hkl, h.scopes_eq, h.remaining_eq, h.generated_eq⟩

/-- A character that both have just delivered was in both texts. -/
theorem State.Beside.inStep {d : Char} {ext : List Char} {s t : State}
    (h : s.Beside (Delivered ext d) t) : s.Beside (InStep ext) t :=
  h.withCursor h.cursor.inStep

/-- Whether a reading function, begun with cursors in `P`, keeps step up to the cut, or goes beyond
it with values in `R`. -/
abbrev CutsFrom (c : Char) (rest : List Char) (P : Cursor → Cursor → Prop) (R : α → α → Prop)
    (m : Read α) : Prop :=
  Curtails (State.Beside P) (State.Beside (InStep (c :: rest))) (State.Beside (Beyond c rest)) R m

/-- Whether a reading function does so when it is begun in step. -/
abbrev Cuts (c : Char) (rest : List Char) (R : α → α → Prop) (m : Read α) : Prop :=
  CutsFrom c rest (InStep (c :: rest)) R m

/-- Whether a reading function, begun beyond the cut, fails: in both texts, or because the shorter
one ends too early. -/
abbrev Starves (c : Char) (rest : List Char) (m : Read α) : Prop :=
  Curtails (State.Beside (Beyond c rest)) (State.Beside Never) (State.Beside Never) Never m

/-- Where a part fails beyond the cut, nothing is compared after it. -/
theorem Starves.bind {S T : State → State → Prop} {Q : β → β → Prop} {m : Read α}
    {f g : α → Read β} (hm : Starves c rest m) {s t : State} (h : s.Beside (Beyond c rest) t) :
    Curtailed S T Q ((m >>= f) s) ((m >>= g) t) :=
  (hm s t h).bind (fun _ _ _ _ h => h.cursor.elim) fun _ _ _ _ h => h.elim

namespace Read

/-! ### Parts of steps -/

/-- Scanning is cut for whole states if it is for cursors. -/
theorem cuts_scan {P : Cursor → Cursor → Prop} {R : α → α → Prop} {m : Scan α}
    (hm : Curtails P (InStep (c :: rest)) (Beyond c rest) R m) :
    CutsFrom c rest P R (scan m) := by
  intro s t h
  have hr := hm _ _ h.cursor
  unfold scan
  generalize m s.cursor = r at hr
  generalize m t.cursor = u at hr
  cases hr with
  | inStep hcursor => exact .inStep (h.withCursor hcursor)
  | beyond hvalue hcursor => exact .beyond hvalue (h.withCursor hcursor)
  | error => exact .error
  | starved hf => exact .starved hf

theorem cuts_position : Cuts c rest Never position := by
  intro s t h
  unfold position
  rw [h.cursor.position_eq]
  exact .inStep h

theorem cuts_scopes : Cuts c rest Never scopes := by
  intro s t h
  unfold scopes
  rw [h.scopes_eq]
  exact .inStep h

/-- What is done with the next character is compared where both texts have one, and at the cut. -/
theorem cuts_scan_next_bind {R : α → α → Prop} {f : Option Char → Read α}
    (hsome : ∀ d, CutsFrom c rest (Delivered (c :: rest) d) R (f (some d)))
    (hcut : ∀ s t, s.Beside (Crossed c rest) t → Curtailed (State.Beside (InStep (c :: rest)))
      (State.Beside (Beyond c rest)) R (f (some c) s) (f none t)) :
    Cuts c rest R (scan next >>= f) := by
  intro s t h
  rw [bind_apply, bind_apply]
  unfold scan
  rcases next_of_inStep h.cursor with ⟨d, k', l', hk, hl, hboth⟩ | ⟨k', hk, hl, hcrossed⟩
  · rw [hk, hl]
    exact hsome d _ _ (h.withCursor hboth)
  · rw [hk, hl]
    exact hcut _ _ (h.withCursor hcrossed)

/-- A character that has to be there is missing at the cut. -/
theorem cuts_nextCharacter_bind {R : α → α → Prop} {f : Char → Read α}
    (hf : ∀ d, CutsFrom c rest (Delivered (c :: rest) d) R (f d)) :
    Cuts c rest R (nextCharacter >>= f) := by
  unfold nextCharacter
  rw [bind_assoc]
  exact cuts_scan_next_bind hf fun _ _ _ => .starved rfl

/-- A character that is needed is the same before the cut, and missing behind it. -/
theorem cuts_nextCharacter : Cuts c rest Never nextCharacter := by
  have h : Cuts c rest Never (nextCharacter >>= Pure.pure) :=
    cuts_nextCharacter_bind fun d => .restrict (.pure d) fun _ _ h => h.inStep
  rwa [bind_pure] at h

/-- A character may be handed back after it has been delivered. -/
theorem cuts_unread_bind {R : α → α → Prop} {m : Read α} (d : Char) (hm : Cuts c rest R m) :
    CutsFrom c rest (Delivered (c :: rest) d) R (scan (unread d) >>= fun _ => m) :=
  fun _ _ h => hm _ _ (h.withCursor h.cursor.handBack)

/-- A change of both states beside their cursors changes nothing else. -/
theorem curtailed_mapState {C D : Cursor → Cursor → Prop} {R : α → α → Prop} {f : State → State}
    (hf : ∀ {E : Cursor → Cursor → Prop} {s t : State}, s.Beside E t → (f s).Beside E (f t))
    {r u : EStateM.Result Cause State α}
    (h : Curtailed (State.Beside C) (State.Beside D) R r u) :
    Curtailed (State.Beside C) (State.Beside D) R (mapState f r) (mapState f u) := by
  cases h with
  | inStep h => exact .inStep (hf h)
  | beyond hvalue h => exact .beyond hvalue (hf h)
  | error => exact .error
  | starved h => exact .starved h

section

variable {P C D : Cursor → Cursor → Prop} {R : α → α → Prop} {m : Read α}

theorem curtails_descend (hm : Curtails (State.Beside P) (State.Beside C) (State.Beside D) R m) :
    Curtails (State.Beside P) (State.Beside C) (State.Beside D) R (descend m) := by
  intro s t h
  unfold descend
  rw [h.remaining_eq]
  split
  · exact .error
  · refine curtailed_mapState ?_ (hm _ _ ⟨h.cursor, h.scopes_eq, rfl, h.generated_eq⟩)
    exact fun h => ⟨h.cursor, h.scopes_eq, congrArg (· + 1) h.remaining_eq, h.generated_eq⟩

theorem curtails_within (scope : Scope)
    (hm : Curtails (State.Beside P) (State.Beside C) (State.Beside D) R m) :
    Curtails (State.Beside P) (State.Beside C) (State.Beside D) R (within scope m) := by
  intro s t h
  have hscopes : s.scopes.enter scope = t.scopes.enter scope := by rw [h.scopes_eq]
  refine curtailed_mapState ?_ (hm _ _ ⟨h.cursor, hscopes, h.remaining_eq, h.generated_eq⟩)
  exact fun h => ⟨h.cursor, congrArg (·.leave scope) h.scopes_eq, h.remaining_eq, h.generated_eq⟩

end

end Read

/-! ### What is found at the cut -/

/-- Whether two steps are forms of which one is cut off, or both nothing. -/
inductive Step.CutOff (c : Char) : Step → Step → Prop
  | form {f g : Form} (h : f.CutOff c g) : Step.CutOff c (.form f) (.form g)
  | skip : Step.CutOff c .skip .skip

/-- How a form reader `m` that waits for a delimiter, or for none, may end in the two texts: as
steps do, or the shorter text ends where no form has begun, and what `m` finds in the longer one is
what it finds from a state beyond the cut. -/
inductive Found (c : Char) (rest : List Char) (closer : Option Char) (m : Read Outcome) :
    EStateM.Result Cause State Outcome → EStateM.Result Cause State Outcome → Prop
  | form {f : Form} {s t : State} (h : s.Beside (InStep (c :: rest)) t) :
    Found c rest closer m (.ok (.form f) s) (.ok (.form f) t)
  | closed {s t : State} (hcloser : closer.isSome = true) (h : s.Beside (InStep (c :: rest)) t) :
    Found c rest closer m (.ok .closed s) (.ok .closed t)
  | beyond {f g : Form} {s t : State} (hfg : f.CutOff c g) (h : s.Beside (Beyond c rest) t) :
    Found c rest closer m (.ok (.form f) s) (.ok (.form g) t)
  | ended {s t : State} (h : s.Beside (Beyond c rest) t) :
    Found c rest closer m (m s) (.ok .endOfInput t)
  | error {d e : Cause} {s t : State} : Found c rest closer m (.error d s) (.error e t)
  | starved {r : EStateM.Result Cause State Outcome} {e : Cause} {t : State}
    (he : e.category = .endOfInput) : Found c rest closer m r (.error e t)

/-- How a form reader reads a text that is cut off. -/
structure FormReader.Cuts (c : Char) (rest : List Char) (below : FormReader) (setting : Setting) :
    Prop where
  /-- in step, it finds the same up to the cut -/
  inStep : ∀ closer s t, s.Beside (InStep (c :: rest)) t →
    Found c rest closer (below.run setting closer) (below.run setting closer s)
      (below.run setting closer t)
  /-- beyond the cut, it finds the end of the shorter text, if it reads at all -/
  beyond : ∀ closer s t, s.Beside (Beyond c rest) t →
    below.run setting closer t = .ok .endOfInput t ∨
      ∃ d e s' t', below.run setting closer s = .error d s' ∧
        below.run setting closer t = .error e t'

namespace Level

/-! ### Generated symbols -/

/-- What registering symbols does to a state depends on its scopes and on how many symbols have been
generated. -/
theorem exists_takeGensyms {C : Cursor → Cursor → Prop} {s t : State} (f : Form)
    (h : s.Beside C t) :
    ∃ pairs s' t', takeGensyms f s = .ok pairs s' ∧ takeGensyms f t = .ok pairs t' ∧
      s'.Beside C t' := by
  obtain ⟨k, scopes, remaining, generated⟩ := s
  obtain ⟨l, scopes', remaining', generated'⟩ := t
  obtain ⟨hcursor, rfl, rfl, rfl⟩ := h
  unfold takeGensyms
  cases scopes.gensyms <;> exact ⟨_, _, _, rfl, rfl, hcursor, rfl, rfl, rfl⟩

/-- A comment that is cut off has no symbols in either text. -/
theorem takeGensyms_eq {f g : Form} (h : f.CutOff c g) : takeGensyms f = takeGensyms g := by
  funext s
  unfold takeGensyms
  split
  · rfl
  · rw [h.collect_eq]

theorem cuts_takeGensyms (f : Form) : Cuts c rest Never (takeGensyms f) := by
  intro s t h
  obtain ⟨pairs, s', t', hs, ht, h⟩ := exists_takeGensyms f h
  rw [hs, ht]
  exact .inStep h

/-- A step that makes a form of a reply goes beyond the cut, or fails in both texts. -/
theorem curtailed_reply {x y : Except Cause Form} (hxy : ReplyCutOff c x y) {s t : State}
    (h : s.Beside (Beyond c rest) t) :
    Curtailed (State.Beside (InStep (c :: rest))) (State.Beside (Beyond c rest)) (Step.CutOff c)
      ((do return .form (← ofExcept x) : Read Step) s)
      ((do return .form (← ofExcept y) : Read Step) t) := by
  cases hxy with
  | ok hfg => exact .beyond (.form hfg) h
  | error => exact .error

variable {below : FormReader} {setting : Setting}

section

variable (hbelow : below.Cuts c rest setting)
include hbelow

/-! ### Steps -/

/-- A form that the cut goes through is one that is cut off, one level further down as well. -/
theorem cuts_nested : Cuts c rest (Form.CutOff c) (nested below setting) := by
  refine curtails_descend fun s t h => ?_
  have hfound := hbelow.inStep none s t h
  rw [bind_apply, bind_apply]
  generalize below.run setting none s = r at hfound
  generalize below.run setting none t = u at hfound
  cases hfound with
  | form h => exact .inStep h
  | closed => exact .error
  | beyond hfg h => exact .beyond hfg h
  | ended h => exact .starved rfl
  | error => exact .error
  | starved he => exact .starved he

/-- A form that is waited for is missing beyond the cut. -/
theorem starves_nested : Starves c rest (nested below setting) := by
  refine curtails_descend fun s t h => ?_
  rw [bind_apply, bind_apply]
  rcases hbelow.beyond none s t h with ht | ⟨d, e, s', t', hs, ht⟩
  · rw [ht]
    exact .starved rfl
  · rw [hs, ht]
    exact .error

/-- So is a closing delimiter. -/
theorem starves_collect (line : Option Nat) (close : Char) :
    Starves c rest (collect below setting line close) := by
  intro s t h
  rw [collect.eq_def _ _ _ _ s, collect.eq_def _ _ _ _ t]
  rcases hbelow.beyond (some close) s t h with ht | ⟨d, e, s', t', hs, ht⟩
  · rw [ht]
    exact .starved rfl
  · rw [hs, ht]
    exact .error

/-- The elements of a sequence end before the cut, or the shorter text ends too early. -/
theorem cuts_collect (line : Option Nat) (close : Char) :
    Cuts c rest Never (collect below setting line close) := by
  intro s t h
  -- the induction is on what is left of the shorter text, as the loop is
  induction hsize : t.size using Nat.strongRecOn generalizing s t with
  | ind n ih =>
    have hfound := hbelow.inStep (some close) s t h
    have hadvances := below.advances setting (some close) t
    rw [collect_eq, bind_apply, bind_apply]
    generalize below.run setting (some close) s = r at hfound
    generalize below.run setting (some close) t = u at hfound hadvances
    cases hfound with
    | @form f s₁ t₁ h =>
      have hrest := ih t₁.size (hsize ▸ hadvances.1) s₁ t₁ h rfl
      exact hrest.map _
    | closed _ h => exact .inStep h
    | beyond hfg h => exact (starves_collect hbelow line close).bind h
    | ended h => exact .starved rfl
    | error => exact .error
    | starved he => exact .starved he

/-- Nothing that has to be closed goes beyond the cut: the shorter text ends in it. -/
theorem cuts_sequence (close : Char) : Cuts c rest Never (sequence below setting close) :=
  .bind cuts_position fun _ => curtails_descend (cuts_collect hbelow _ close)

/-- The form behind a mark may be one that is cut off. -/
theorem cuts_marked (mark : Mark) : Cuts c rest (Step.CutOff c) (marked below setting mark) :=
  .bind_beyond (cuts_nested hbelow) (fun _ => .pure _) fun _ _ hfg _ _ h =>
    .beyond (.form (.marked mark hfg)) h

theorem cuts_list : Cuts c rest (Step.CutOff c) (list below setting) :=
  .bind cuts_position fun _ => .bind (cuts_sequence hbelow _) fun _ => .pure _

theorem cuts_map : Cuts c rest (Step.CutOff c) (map below setting) :=
  .bind (cuts_sequence hbelow _) fun _ => .ite (.throw _) (.pure _)

/-- Whether a form is fit to be annotated is looked at in both texts, also where a comment stands
for it that is cut off. -/
theorem cuts_annotated : Cuts c rest (Step.CutOff c) (annotated below setting) := by
  refine .bind cuts_position fun position => ?_
  refine .bind_beyond (cuts_nested hbelow) (fun note => ?_) fun note note' hnote s t h => ?_
  · cases noteKind? note with
    | none => exact .throw _
    | some kind =>
      refine .bind_beyond (cuts_nested hbelow) (fun object => .ite (.pure _) (.throw _)) ?_
      intro object object' hobject s t h
      rw [hobject.isAnnotatable_eq, hobject.isList_eq]
      split
      · exact .beyond (.form (.annotated kind note _ hobject)) h
      · exact .error
  · rw [hnote.noteKind?_eq]
    cases noteKind? note' with
    | none => exact .error
    | some kind => exact (starves_nested hbelow).bind h

/-- The symbols generated for a backquoted form are the same in both texts. -/
theorem cuts_backquoted : Cuts c rest (Step.CutOff c) (backquoted below setting) := by
  refine curtails_within .backquote ?_
  refine .bind_beyond (cuts_nested hbelow) (fun f => ?_) fun f g hfg s t h => ?_
  · exact .bind (cuts_takeGensyms f) fun _ => .bind (.ofExcept _) fun _ => .pure _
  · obtain ⟨pairs, s', t', hs, ht, h⟩ := exists_takeGensyms g h
    rw [takeGensyms_eq hfg, bind_apply, bind_apply, hs, ht]
    exact curtailed_reply (replyCutOff_backquote hfg pairs) h

theorem cuts_unquoted : Cuts c rest (Step.CutOff c) (unquoted below setting) :=
  cuts_nextCharacter_bind fun d => .ite
    (.restrict (cuts_marked hbelow _) fun _ _ h => h.inStep)
    (cuts_unread_bind d (cuts_marked hbelow _))

/-- The default host looks at a tagged form only for a string. -/
theorem cuts_tagged (hhost : setting.host = .standard regex) :
    Cuts c rest (Step.CutOff c) (tagged below setting) := by
  obtain ⟨options, host⟩ := setting
  obtain rfl : host = .standard regex := hhost
  refine .bind_beyond (cuts_nested hbelow) (fun tag => ?_) fun tag tag' htag s t h => ?_
  · split
    · refine .bind_beyond (cuts_nested hbelow) (fun f => ?_) fun f g hfg s t h => ?_
      · exact .bind cuts_scopes fun _ => .bind (.ofExcept _) fun _ => .pure _
      · rw [bind_apply, bind_apply, scopes, scopes, h.scopes_eq]
        exact curtailed_reply (replyCutOff_interpretTagged options _ _ hfg) h
    · exact .throw _
  · cases htag with
    | refl tag =>
      split
      · exact (starves_nested hbelow).bind h
      · exact .error
    | _ => exact .error

/-- The parenthesis of a function literal is handed back right after it was delivered. -/
theorem cuts_function :
    CutsFrom c rest (Delivered (c :: rest) '(') (Step.CutOff c) (function below setting) := by
  intro s t h
  rw [function_apply, function_apply, h.scopes_eq]
  split
  · exact .error
  · have hbody : CutsFrom c rest (Delivered (c :: rest) '(') (Form.CutOff c)
        (functionBody below setting) :=
      curtails_within .function (cuts_unread_bind '(' (cuts_nested hbelow))
    exact (hbody s t h).bind (fun _ _ _ _ h => .inStep h) fun _ _ _ _ hfg h =>
      .beyond (.form (.marked .function hfg)) h

end

/-- Trivia that is cut off is trivia. -/
theorem cutOff_trivia {f g : Form} (h : f.CutOff c g) :
    (trivia setting f).CutOff c (trivia setting g) := by
  unfold trivia
  split
  · exact .form h
  · exact .skip

/-- A comment may end at the cut in the shorter text only. -/
theorem cuts_comment (style : CommentStyle) :
    Cuts c rest (Step.CutOff c) (do
      return trivia setting (.comment style (← scan Scan.line)) : Read Step) :=
  .bind_beyond (cuts_scan Scan.cuts_line) (fun _ => .pure _) fun _ _ hab _ _ h =>
    .beyond (cutOff_trivia (.comment style hab)) h

theorem cuts_pattern : Cuts c rest (Step.CutOff c) (pattern setting) := by
  refine .bind (cuts_scan Scan.cuts_pattern) fun source => ?_
  cases setting.host.patterns source
  · exact .throw _
  · exact .pure _

/-- What a level does depends on what the next form begins with. -/
theorem read_congr (closer : Option Char) {s s' : State}
    (h : scan nextForm s = scan nextForm s') :
    read below setting closer s = read below setting closer s' := by
  have hread (s : State) := congrFun (read_eq below setting closer) s
  rw [hread s, hread s', bind_apply, bind_apply, h]

/-- Beyond the cut a level finds the end of the shorter text. -/
theorem read_of_beyond (closer : Option Char) {s t : State} (h : s.Beside (Beyond c rest) t) :
    read below setting closer t = .ok .endOfInput t := by
  have hscan : scan nextForm t = .ok none t := by
    unfold scan
    rw [nextForm_of_at_nil h.cursor.1]
  rw [congrFun (read_eq below setting closer) t, bind_apply, hscan]
  rfl

section

variable (hc : Text.isBlank c = true)
include hc

/-- The token of an argument ends at the cut, where a blank comes next in the longer text. -/
theorem cuts_arg : Cuts c rest (Step.CutOff c) arg := by
  refine .bind (cuts_scan (Scan.cuts_token hc _)) fun token => ?_
  cases argRef? token.toList.tail
  · exact .throw _
  · exact .pure _

theorem cuts_symbolic : Cuts c rest (Step.CutOff c) symbolic :=
  .bind cuts_nextCharacter fun _ => .bind (cuts_scan (Scan.cuts_token hc _)) fun _ =>
    .ite (.pure _) (.ite (.pure _) (.ite (.pure _) (.throw _)))

/-- The first character of a form is found in both texts, or the longer one is read on after the
cut. -/
theorem scan_nextForm_of_inStep {s t : State} (h : s.Beside (InStep (c :: rest)) t) :
    (∃ d s' t', scan nextForm s = .ok (some d) s' ∧ scan nextForm t = .ok (some d) t' ∧
        s'.Beside (InStep (c :: rest)) t') ∨
      ∃ s' t', scan nextForm s = scan nextForm s' ∧ scan nextForm t = .ok none t' ∧
        s'.Beside (Beyond c rest) t' := by
  unfold scan
  rcases Scan.nextForm_of_inStep hc h.cursor with
    ⟨d, k', l', hk, hl, hboth⟩ | ⟨k', l', hk, hl, hbeyond⟩
  · exact .inl ⟨d, _, _, by rw [hk], by rw [hl], h.withCursor hboth⟩
  · exact .inr ⟨{ s with cursor := k' }, _, by rw [hk], by rw [hl], h.withCursor hbeyond⟩

theorem cuts_nextNonBlank : Cuts c rest Never nextNonBlank := by
  intro s t h
  rw [nextNonBlank, bind_apply, bind_apply]
  rcases scan_nextForm_of_inStep hc h with ⟨d, s', t', hs, ht, h⟩ | ⟨s', t', -, ht, -⟩
  · rw [hs, ht]
    exact .inStep h
  · rw [ht]
    exact .starved rfl

theorem cuts_conditionalOpening : Cuts c rest Never conditionalOpening :=
  .bind cuts_nextCharacter fun _ =>
    .ite (.bind (cuts_nextNonBlank hc) fun _ => .pure _)
      (.ite (.bind (cuts_nextNonBlank hc) fun _ => .pure _) (.pure _))

theorem cuts_number (d : Char) : Cuts c rest (Step.CutOff c) (number d) :=
  .bind (cuts_scan (Scan.cuts_number hc _)) fun _ => .pure _

/-- A token ends at the cut, where a blank comes next in the longer text. -/
theorem cuts_token (d : Char) : Cuts c rest (Step.CutOff c) (token setting d) :=
  .bind (cuts_scan (Scan.cuts_token hc _)) fun _ => .bind (.ofExcept _) fun _ => .pure _

/-- After a sign the blank at the cut begins no number, as the end of the shorter text does not. -/
theorem cuts_signed (d : Char) : Cuts c rest (Step.CutOff c) (signed setting d) := by
  refine cuts_scan_next_bind (fun e => ?_) fun s t h => ?_
  · exact cuts_unread_bind e (.ite (cuts_number hc d) (cuts_token hc d))
  · have hback : State.Beside (InStep (c :: rest)) { s with cursor := s.cursor.handBack c } t :=
      h.withCursor h.cursor.handBack
    dsimp only
    rw [isDigit_eq_false_of_isBlank hc]
    exact cuts_token hc d _ _ hback

variable (hbelow : below.Cuts c rest setting)
include hbelow

/-- A conditional has to be closed, so that it is never cut off. -/
theorem cuts_conditional : Cuts c rest (Step.CutOff c) (conditional below setting) := by
  refine .ite (.throw _) (.bind (cuts_conditionalOpening hc) fun (d, splicing) => ?_)
  refine .ite (.throw _) (.bind cuts_position fun _ => curtails_within .conditional ?_)
  refine .bind (cuts_sequence hbelow _) fun es => ?_
  cases conditionalFault? splicing es
  · exact .pure _
  · exact .throw _

/-- **Behind a hash sign** the two texts are read alike up to the cut. -/
theorem cuts_startHash {d : Char} {trigger : HashTrigger}
    (hd : HashTrigger.ofChar? d = some trigger) :
    CutsFrom c rest (Delivered (c :: rest) d) (Step.CutOff c)
      (startHash below setting trigger) := by
  have hstep {m : Read Step} (hm : Cuts c rest (Step.CutOff c) m) :
      CutsFrom c rest (Delivered (c :: rest) d) (Step.CutOff c) m :=
    .restrict hm fun _ _ h => h.inStep
  cases trigger with
  | note => exact hstep (cuts_annotated hbelow)
  | var => exact hstep (cuts_marked hbelow _)
  | pattern => exact hstep cuts_pattern
  | function =>
    obtain rfl : '(' = d := HashTrigger.char_eq hd
    exact cuts_function hbelow
  | set => exact hstep (.bind (cuts_sequence hbelow _) fun _ => .pure _)
  | eval => exact hstep (.ite (cuts_marked hbelow _) (.throw _))
  | shebang => exact hstep (cuts_comment _)
  | unreadable => exact .throw _
  | discard =>
    exact hstep (.bind_beyond (cuts_nested hbelow) (fun _ => .pure _) fun _ _ hfg _ _ h =>
      .beyond (cutOff_trivia (.marked .discard hfg)) h)
  | conditional => exact hstep (cuts_conditional hc hbelow)
  | symbolic => exact hstep (cuts_symbolic hc)

variable (hhost : setting.host = .standard regex)
include hhost

theorem cuts_hash : Cuts c rest (Step.CutOff c) (hash below setting) :=
  cuts_nextCharacter_bind fun d => by
    cases hd : HashTrigger.ofChar? d with
    | some trigger => exact cuts_startHash hc hbelow hd
    | none => exact cuts_unread_bind d (cuts_tagged hbelow hhost)

theorem cuts_startTrigger (d : Char) (trigger : Trigger) :
    Cuts c rest (Step.CutOff c) (startTrigger below setting d trigger) := by
  cases trigger with
  | string => exact .bind (cuts_scan (Scan.cuts_string hc)) fun _ => .pure _
  | comment => exact cuts_comment _
  | comma => exact .pure _
  | quote => exact cuts_marked hbelow _
  | deref => exact cuts_marked hbelow _
  | note => exact cuts_annotated hbelow
  | backquote => exact cuts_backquoted hbelow
  | unquote => exact cuts_unquoted hbelow
  | list => exact cuts_list hbelow
  | vector => exact .bind (cuts_sequence hbelow _) fun _ => .pure _
  | map => exact cuts_map hbelow
  | unmatched => exact .throw _
  | character => exact .bind (cuts_scan (Scan.cuts_charLiteral hc)) fun _ => .pure _
  | arg => exact cuts_arg hc
  | hash => exact cuts_hash hc hbelow hhost

/-- **One step of a level is cut** in a comment only. -/
theorem cuts_start (d : Char) : Cuts c rest (Step.CutOff c) (start below setting d) := by
  refine .ite (cuts_number hc d) ?_
  split
  · exact cuts_startTrigger hc hbelow hhost _ _
  · exact .ite (cuts_signed hc d) (cuts_token hc d)

/-! ### Levels -/

/-- Where a level goes on in the longer text after the cut, it has found the end of the shorter
one. -/
theorem found_read (closer : Option Char) {s t : State} (h : s.Beside (InStep (c :: rest)) t) :
    Found c rest closer (read below setting closer : Read Outcome) (read below setting closer s)
      (read below setting closer t) := by
  have hread (s : State) := congrFun (read_eq below setting closer) s
  -- the induction is on what is left of the shorter text, as the loop over what is skipped is
  induction hsize : t.size using Nat.strongRecOn generalizing s t with
  | ind n ih =>
    rcases scan_nextForm_of_inStep hc h with ⟨d, s₁, t₁, hs, ht, h⟩ | ⟨s₁, t₁, hs, ht, h⟩
    · have hstart := cuts_start hc hbelow hhost d s₁ t₁ h
      have hsize_le := (settles_start below setting d).size_le t₁
      have hsize_lt : t₁.size < n := hsize ▸ size_lt_of_scan_nextForm ht
      rw [hread s, hread t, bind_apply, bind_apply, hs, ht]
      dsimp only
      split
      · rename_i hcloser
        exact .closed (by rw [← eq_of_beq hcloser]; rfl) h
      · rw [bind_apply, bind_apply]
        generalize start below setting d s₁ = r at hstart
        generalize start below setting d t₁ = u at hstart hsize_le
        cases hstart with
        | @inStep step s₂ t₂ h =>
          cases step with
          | form f => exact .form h
          | skip => exact ih t₂.size (Nat.lt_of_le_of_lt hsize_le hsize_lt) h rfl
        | @beyond step step' s₂ t₂ hvalue h =>
          cases hvalue with
          | form hfg => exact .beyond hfg h
          | skip =>
            have hend : read below setting closer t₂ = .ok .endOfInput t₂ := read_of_beyond closer h
            dsimp only
            rw [hend]
            exact .ended h
        | error => exact .error
        | starved hf => exact .starved hf
    · have hend : read below setting closer t = .ok .endOfInput t₁ := by
        rw [hread t, bind_apply, ht]
        rfl
      rw [read_congr closer hs, hend]
      exact .ended h

end

end Level

/-- Readers of any number of levels find the same up to the cut. -/
theorem FormReader.cuts_nesting (hc : Text.isBlank c = true) {setting : Setting}
    (hhost : setting.host = .standard regex) (n : Nat) : (nesting n).Cuts c rest setting := by
  induction n with
  | zero => exact ⟨fun _ _ _ _ => .error, fun _ _ _ _ => .inr ⟨_, _, _, _, rfl, rfl⟩⟩
  | succ n ih =>
    exact ⟨fun closer _ _ h => Level.found_read hc ih hhost closer h,
      fun closer _ _ h => .inl (Level.read_of_beyond closer h)⟩

end FormTree
