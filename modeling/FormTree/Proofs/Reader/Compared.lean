import FormTree.Proofs.Form.Core
import FormTree.Proofs.Reader.Token
import FormTree.Proofs.Source.Compared
import FormTree.Reader.Level

/-!
# Two readings compared

Two readings, in settings that may differ, go side by side as long as the states that they are in
correspond. A **comparison** says which states, positions, symbols to generate, forms and causes
correspond, and has the laws that make every step of a level go from corresponding states to
corresponding results. There is one law for each thing that a level looks at or makes: for what the
settings decide, for what a cursor shows, for scopes, and for each way to build a form. Then levels
accord, and so do readers of any number of levels, unless the first reading is excused.
-/

namespace FormTree

open Cursor

/-- Whether a form has no form inside of it and no metadata. -/
def Form.isAtom : Form → Bool
  | .tagged _ _ | .marked _ _ | .annotated _ _ _ _ => false
  | .backquoted _ _ | .list _ _ | .group _ _ => false
  | _ => true

/-- Whether cursors, scopes and the numbers of generated symbols correspond, and the budgets are the
same. -/
structure State.Corresponds (cursors : Cursor → Cursor → Prop) (scopes : Scopes → Scopes → Prop)
    (generated : Nat → Nat → Prop) (s t : State) : Prop where
  cursor : cursors s.cursor t.cursor
  scopes : scopes s.scopes t.scopes
  remaining_eq : s.remaining = t.remaining
  generated : generated s.generated t.generated

/-- Whether two settings agree, except for conditionals, patterns and tagged forms. -/
structure Setting.Matches (here there : Setting) : Prop where
  trivia_eq : here.options.trivia = there.options.trivia
  evaluation_eq : here.host.evaluation = there.host.evaluation
  resolver_eq : here.host.resolver = there.host.resolver

/-- A setting agrees with itself. -/
theorem Setting.Matches.refl (setting : Setting) : Matches setting setting := ⟨rfl, rfl, rfl⟩

/-- A correspondence of all that reading depends on and makes, for two settings. -/
structure Read.Comparison (here there : Setting) extends
    Scan.Comparison, Setting.Matches here there where
  scopes : Scopes → Scopes → Prop
  generated : Nat → Nat → Prop
  places : Option Position → Option Position → Prop
  gensyms : List (Symbol × Symbol) → List (Symbol × Symbol) → Prop
  forms : Form → Form → Prop
  -- what the settings decide
  /-- conditionals are refused in both settings or in neither, or only here, which is excused -/
  conditionals : (here.options.conditionals = .disabled ↔ there.options.conditionals = .disabled) ∨
    here.options.conditionals = .disabled ∧ excused .conditionalNotAllowed
  patterns : ∀ source, ExceptRel Eq forms (here.host.patterns source) (there.host.patterns source)
  tagged : ∀ {a b : Scopes} {f g : Form} (tag : Symbol), scopes a b → forms f g →
    InAccord excused (State.Corresponds cursors scopes generated) causes
      (State.Corresponds cursors scopes generated) forms
      (ofExcept (Level.interpretTagged here a.inConditional tag f) : Read Form)
      (ofExcept (Level.interpretTagged there b.inConditional tag g))
  -- what a cursor shows
  position : ∀ {k l : Cursor}, cursors k l → places k.position l.position
  places_none : places none none
  causes_line : ∀ {p q : Option Position}, places p q →
    causes (.endInSequence (p.map Position.line)) (.endInSequence (q.map Position.line))
  -- scopes
  enter : ∀ {a b : Scopes} (scope : Scope), scopes a b → scopes (a.enter scope) (b.enter scope)
  inFunction_eq : ∀ {a b : Scopes}, scopes a b → a.inFunction = b.inFunction
  takeGensyms : ∀ {f g : Form}, forms f g →
    InAccord excused (State.Corresponds cursors scopes generated) causes
      (State.Corresponds cursors scopes generated) gensyms (Level.takeGensyms f)
      (Level.takeGensyms g)
  -- forms
  core_eq : ∀ {f g : Form}, forms f g → f.core = g.core
  atom : ∀ {f : Form}, f.isAtom = true → forms f f
  /-- nothing is marked to be evaluated where that is refused -/
  marked : ∀ {f g : Form} (mark : Mark), (mark = .eval → here.host.evaluation = .enabled) →
    forms f g → forms (.marked mark f) (.marked mark g)
  annotated : ∀ {m n f g : Form} {p q : Option Position} (kind : NoteKind), forms m n → forms f g →
    places p q → forms (.annotated kind m f p) (.annotated kind n g q)
  backquote : ∀ {f g : Form} {ps qs : List (Symbol × Symbol)}, forms f g → gensyms ps qs →
    ExceptRel causes forms (Level.backquote f ps) (Level.backquote g qs)
  list : ∀ {es fs : List Form} {p q : Option Position}, List.Forall₂ forms es fs → places p q →
    forms (.list (if es.isEmpty then .empty else .at? p) es)
      (.list (if fs.isEmpty then .empty else .at? q) fs)
  group : ∀ {es fs : List Form} {g : Group}, List.Forall₂ forms es fs →
    g = .vector ∨ g = .map ∨ g = .set ∨ g = .file → forms (.group g es) (.group g fs)
  conditional : ∀ {es fs : List Form} {p q : Option Position} (splicing : Bool),
    List.Forall₂ forms es fs → places p q →
      forms (.group (.conditional splicing p) es) (.group (.conditional splicing q) fs)

namespace Read.Comparison

open Scan.Comparison

variable {here there : Setting} (C : Comparison here there) {α β γ δ : Type}

/-- Whether two states correspond. -/
abbrev States : State → State → Prop := State.Corresponds C.cursors C.scopes C.generated

/-- Whether two states correspond and a character may be handed back in both. -/
def Delivered (s t : State) : Prop :=
  C.States s t ∧ C.toComparison.Delivered s.cursor t.cursor

/-- Whether two reading functions, run from corresponding states, accord. -/
abbrev Agree (R : α → β → Prop) (m : Read α) (n : Read β) : Prop :=
  InAccord C.excused C.States C.causes C.States R m n

/-- Whether two outcomes of a level correspond. -/
inductive Outcomes : Outcome → Outcome → Prop
  | form {f g : Form} (h : C.forms f g) : Outcomes (.form f) (.form g)
  | endOfInput : Outcomes .endOfInput .endOfInput
  | closed : Outcomes .closed .closed

/-- Whether two steps correspond. -/
inductive Steps : Step → Step → Prop
  | form {f g : Form} (h : C.forms f g) : Steps (.form f) (.form g)
  | skip : Steps .skip .skip

variable {C}

/-- A cause that names no line is the same in both. -/
theorem agree_throw {R : α → β → Prop} {e : Cause} (he : e.namesLine = false) :
    C.Agree R (throw e) (throw e) :=
  .throw (C.causes_refl he)

/-- States that correspond still do with other cursors that correspond. -/
theorem States.withCursor {s t : State} {k l : Cursor} (h : C.States s t) (hkl : C.cursors k l) :
    C.States { s with cursor := k } { t with cursor := l } :=
  ⟨hkl, h.scopes, h.remaining_eq, h.generated⟩

/-- Scanning agrees for whole states if it does for cursors. -/
theorem agree_scan {m : Scan α} (hm : C.toComparison.Agrees m) : C.Agree Eq (scan m) (scan m) := by
  intro s t h
  unfold scan
  have hr := hm _ _ h.cursor
  generalize m s.cursor = r at hr
  generalize m t.cursor = u at hr
  cases hr with
  | ok hvalue hstate => exact .ok hvalue (h.withCursor hstate)
  | error herror hstate => exact .error herror (h.withCursor hstate)
  | excused hx => exact .excused hx

theorem agree_position : C.Agree C.places Read.position Read.position :=
  fun _ _ h => .ok (C.position h.cursor) h

theorem agree_scopes : C.Agree C.scopes Read.scopes Read.scopes :=
  fun _ _ h => .ok h.scopes h

theorem agree_nextCharacter : C.Agree Eq nextCharacter nextCharacter :=
  .bind_eq (agree_scan agrees_next) fun c => by
    cases c
    · exact agree_throw rfl
    · exact .pure rfl

/-- What is done with the next character may hand that back. -/
theorem agree_scan_next_bind {R : α → β → Prop} {f : Option Char → Read α}
    {g : Option Char → Read β} (hnone : C.Agree R (f none) (g none))
    (hsome : ∀ c, InAccord C.excused C.Delivered C.causes C.States R (f (some c)) (g (some c))) :
    C.Agree R (scan next >>= f) (scan next >>= g) := by
  intro s t h
  refine (agree_scan agrees_next s t h).bind fun c _ s' t' hs ht hc hst => ?_
  subst hc
  cases c with
  | none => exact hnone _ _ hst
  | some c =>
    obtain ⟨k, hk, rfl⟩ := scan_eq_ok.1 hs
    obtain ⟨l, hl, rfl⟩ := scan_eq_ok.1 ht
    exact hsome c _ _ ⟨hst, hst.cursor, C.handBack h.cursor hk hl⟩

/-- A run that needs a character goes on right after it has been delivered in both. -/
theorem agree_nextCharacter_bind {R : α → β → Prop} {f : Char → Read α} {g : Char → Read β}
    (hfg : ∀ c, InAccord C.excused C.Delivered C.causes C.States R (f c) (g c)) :
    C.Agree R (nextCharacter >>= f) (nextCharacter >>= g) := by
  unfold nextCharacter
  rw [bind_assoc, bind_assoc]
  exact agree_scan_next_bind (agree_throw rfl) hfg

/-- A character may be handed back after one has been delivered. -/
theorem unread_bind_accords {R : α → β → Prop} {m : Read α} {n : Read β} (c : Char)
    (hmn : C.Agree R m n) :
    InAccord C.excused C.Delivered C.causes C.States R (scan (unread c) >>= fun _ => m)
      (scan (unread c) >>= fun _ => n) :=
  fun _ _ h => hmn _ _ (h.1.withCursor (h.2.2 c))

/-- A level is entered in both runs or in neither: the budgets are the same. -/
theorem agree_descend {R : α → β → Prop} {m : Read α} {n : Read β} (hmn : C.Agree R m n) :
    C.Agree R (descend m) (descend n) := by
  intro s t h
  unfold descend
  rw [h.remaining_eq]
  split
  · exact .error (C.causes_refl rfl) h
  · have hr := hmn { s with remaining := t.remaining - 1 } { t with remaining := t.remaining - 1 }
      ⟨h.cursor, h.scopes, rfl, h.generated⟩
    generalize m _ = r at hr
    generalize n _ = u at hr
    cases hr with
    | ok hvalue h =>
      exact .ok hvalue ⟨h.cursor, h.scopes, congrArg (· + 1) h.remaining_eq, h.generated⟩
    | error herror h =>
      exact .error herror ⟨h.cursor, h.scopes, congrArg (· + 1) h.remaining_eq, h.generated⟩
    | excused hx => exact .excused hx

/-- Inside of a scope runs are compared as they are outside of it. The scopes that they leave are
those that they were given, so that these still correspond. -/
theorem accords_within {R : α → β → Prop} {m : Read α} {n : Read β} {s t : State} {scope : Scope}
    (hm : (stateOf (within scope m s)).scopes = s.scopes)
    (hn : (stateOf (within scope n t)).scopes = t.scopes) (hst : C.scopes s.scopes t.scopes)
    (h : Accords C.excused C.causes C.States R (m { s with scopes := s.scopes.enter scope })
      (n { t with scopes := t.scopes.enter scope })) :
    Accords C.excused C.causes C.States R (within scope m s) (within scope n t) := by
  unfold within at hm hn ⊢
  generalize m _ = r at h hm
  generalize n _ = u at h hn
  cases h with
  | ok hvalue h => exact .ok hvalue ⟨h.cursor, by rwa [← hm, ← hn] at hst,
      h.remaining_eq, h.generated⟩
  | error herror h =>
    exact .error herror ⟨h.cursor, by rwa [← hm, ← hn] at hst, h.remaining_eq, h.generated⟩
  | excused hx => exact .excused hx

/-- Inside of a scope runs agree if they leave scopes as they found them. -/
theorem agree_within {R : α → β → Prop} {m : Read α} {n : Read β} {scope : Scope}
    (hm : Settles (·.leave scope) 0 m) (hn : Settles (·.leave scope) 0 n)
    (hleave : ∀ scopes : Scopes, (scopes.enter scope).leave scope = scopes) (hmn : C.Agree R m n) :
    C.Agree R (within scope m) (within scope n) :=
  fun s t h => accords_within ((scopes_within hm s).trans (hleave _))
    ((scopes_within hn t).trans (hleave _)) h.scopes
    (hmn _ _ ⟨h.cursor, C.enter scope h.scopes, h.remaining_eq, h.generated⟩)

/-! ### What levels look at in forms -/

section

variable {f g : Form} {es fs : List Form}

/-- Elements that correspond have the same cores. -/
theorem map_core_eq (h : List.Forall₂ C.forms es fs) : Form.coreAll es = Form.coreAll fs := by
  induction h with
  | nil => rfl
  | cons hfg _ ih => rw [Form.coreAll, Form.coreAll, C.core_eq hfg, ih]

/-- What looks at the core of a form only is the same for forms that correspond. -/
theorem congr_core {look : Form → α} (hlook : ∀ f, look f.core = look f) (h : C.forms f g) :
    look f = look g := by
  rw [← hlook f, C.core_eq h, hlook g]

theorem noteKind?_eq (h : C.forms f g) : Level.noteKind? f = Level.noteKind? g :=
  congr_core Form.noteKind?_core h

theorem isAnnotatable_eq (h : C.forms f g) : f.isAnnotatable = g.isAnnotatable :=
  congr_core Form.isAnnotatable_core h

theorem isList_eq (h : C.forms f g) : Level.isList f = Level.isList g :=
  congr_core (fun f => by cases f <;> rfl) h

theorem toSymbol?_eq (h : C.forms f g) : f.toSymbol? = g.toSymbol? :=
  congr_core (fun f => by cases f <;> rfl) h

theorem length_dataOf_eq (h : List.Forall₂ C.forms es fs) :
    (Form.dataOf es).length = (Form.dataOf fs).length := by
  rw [← Form.length_coreAll, ← Form.dataOf_coreAll, map_core_eq h, Form.dataOf_coreAll,
    Form.length_coreAll]

/-- Conditionals pass their check in both, or fail it in the same way. -/
theorem conditionalFault?_eq (splicing : Bool) (h : List.Forall₂ C.forms es fs) :
    Level.conditionalFault? splicing es = Level.conditionalFault? splicing fs := by
  rw [← Form.conditionalFault?_coreAll, map_core_eq h, Form.conditionalFault?_coreAll]

end

end Read.Comparison

/-! ### Steps -/

namespace Level

open Read Scan.Comparison Read.Comparison

variable {here there : Setting} {C : Read.Comparison here there} {below : FormReader}

theorem agree_arg : C.Agree C.Steps arg arg := by
  refine .bind_eq (agree_scan (agrees_token _)) fun token => ?_
  cases argRef? token.toList.tail
  · exact agree_throw rfl
  · exact .pure (.form (C.atom rfl))

/-- Patterns agree as far as the hosts do. -/
theorem agree_pattern : C.Agree C.Steps (pattern here) (pattern there) := by
  refine .bind_eq (agree_scan agrees_pattern) fun source => ?_
  have h := C.patterns source
  generalize here.host.patterns source = x at h
  generalize there.host.patterns source = y at h
  cases h with
  | ok h => exact .pure (.form h)
  | error h =>
    subst h
    exact agree_throw rfl

theorem agree_symbolic : C.Agree C.Steps symbolic symbolic := by
  refine .bind_eq agree_nextCharacter fun first =>
    .bind_eq (agree_scan (agrees_token _)) fun _ => ?_
  exact .ite Iff.rfl (.pure (.form (C.atom rfl))) <| .ite Iff.rfl (.pure (.form (C.atom rfl))) <|
    .ite Iff.rfl (.pure (.form (C.atom rfl))) (agree_throw rfl)

theorem agree_nextNonBlank : C.Agree Eq nextNonBlank nextNonBlank :=
  .bind_eq (agree_scan agrees_nextForm) fun c => by
    cases c
    · exact agree_throw rfl
    · exact .pure rfl

theorem agree_conditionalOpening : C.Agree Eq conditionalOpening conditionalOpening :=
  .bind_eq agree_nextCharacter fun _ =>
    .ite Iff.rfl (.bind_eq agree_nextNonBlank fun _ => .pure rfl) <|
      .ite Iff.rfl (.bind_eq agree_nextNonBlank fun _ => .pure rfl) (.pure rfl)

/-- Trivia is kept in both or skipped in both. -/
theorem steps_trivia {f g : Form} (h : C.forms f g) : C.Steps (trivia here f) (trivia there g) := by
  unfold trivia
  rw [C.trivia_eq]
  split
  · exact .form h
  · exact .skip

theorem agree_number (c : Char) : C.Agree C.Steps (number c) (number c) :=
  .bind_eq (agree_scan (agrees_number _)) fun _ => .pure (.form (C.atom rfl))

theorem agree_token (c : Char) : C.Agree C.Steps (token here c) (token there c) := by
  refine .bind_eq (agree_scan (agrees_token _)) fun text => ?_
  rw [C.resolver_eq]
  rcases h : Token.interpret there.host.resolver text with e | f
  · rw [Token.eq_invalidToken_of_interpret h]
    exact agree_throw rfl
  · refine .pure (.form (C.atom ?_))
    rcases atom_of_interpret h with rfl | ⟨b, rfl⟩ | ⟨s, rfl⟩ | ⟨k, rfl⟩ <;> rfl

theorem agree_signed (c : Char) : C.Agree C.Steps (signed here c) (signed there c) :=
  agree_scan_next_bind (agree_token c) fun d =>
    unread_bind_accords d (.ite Iff.rfl (agree_number c) (agree_token c))

/-- The forms of a conditional leave the scopes as they should, also where they are refused. -/
theorem settles_conditionalForms (below : FormReader) (setting : Setting) (splicing : Bool)
    (position : Option Position) :
    Settles (·.leave .conditional) 0 (do
      let es ← sequence below setting ')'
      match conditionalFault? splicing es with
      | some fault => throw (.malformedConditional fault)
      | none => return .form (.group (.conditional splicing position) es) : Read Step) := by
  refine .bind (settles_sequence below setting ')').seen fun es => ?_
  cases conditionalFault? splicing es
  · exact .pure _
  · exact .throw _

section

variable (hbelow : ∀ closer, C.Agree C.Outcomes (below.run here closer) (below.run there closer))
include hbelow

/-- Forms one level further down agree. -/
theorem agree_nested : C.Agree C.forms (nested below here) (nested below there) :=
  agree_descend <| .bind (hbelow none) fun _ _ h => by
    cases h with
    | form h => exact .pure h
    | endOfInput => exact agree_throw rfl
    | closed => exact agree_throw rfl

/-- Elements agree one by one; where the end is reached early, the lines named correspond. -/
theorem agree_collect {p q : Option Position} (hpq : C.places p q) (close : Char) :
    C.Agree (List.Forall₂ C.forms) (collect below here (p.map Position.line) close)
      (collect below there (q.map Position.line) close) := by
  intro s t h
  -- the induction is on what is left in the second state, as the loop is
  induction hsize : t.size using Nat.strongRecOn generalizing s t with
  | ind n ih =>
    rw [collect_eq below here, collect_eq below there]
    refine (hbelow (some close) s t h).bind fun _ _ s₁ t₁ _ ht hvalue hst => ?_
    cases hvalue with
    | form hfg =>
      have hadvances := below.advances there (some close) t
      rw [ht] at hadvances
      have hrest := ih t₁.size (hsize ▸ hadvances.1) s₁ t₁ hst rfl
      exact hrest.map fun _ _ hes => .cons hfg hes
    | endOfInput => exact .error (C.causes_line hpq) hst
    | closed => exact .ok .nil hst

theorem agree_sequence (close : Char) :
    C.Agree (List.Forall₂ C.forms) (sequence below here close) (sequence below there close) :=
  .bind agree_position fun _ _ h => agree_descend (agree_collect hbelow h close)

/-- A mark that evaluates is met by both hosts in the same way. -/
theorem agree_marked (mark : Mark) (hmark : mark = .eval → here.host.evaluation = .enabled) :
    C.Agree C.Steps (marked below here mark) (marked below there mark) :=
  .bind (agree_nested hbelow) fun _ _ h => .pure (.form (C.marked mark hmark h))

theorem agree_list : C.Agree C.Steps (list below here) (list below there) :=
  .bind agree_position fun _ _ hplaces => .bind (agree_sequence hbelow _) fun _ _ h =>
    .pure (.form (C.list h hplaces))

theorem agree_map : C.Agree C.Steps (map below here) (map below there) := by
  refine .bind (agree_sequence hbelow _) fun es fs h => ?_
  refine .ite (by rw [length_dataOf_eq h]) (agree_throw rfl) (.pure (.form ?_))
  exact C.group h (.inr (.inl rfl))

theorem agree_annotated : C.Agree C.Steps (annotated below here) (annotated below there) := by
  refine .bind agree_position fun p q hpq => .bind (agree_nested hbelow) fun note note' hnote => ?_
  rw [noteKind?_eq hnote]
  cases noteKind? note' with
  | none => exact agree_throw rfl
  | some kind =>
    refine .bind (agree_nested hbelow) fun object object' hobject => ?_
    refine .ite (by rw [isAnnotatable_eq hobject]) (.pure (.form ?_)) (agree_throw rfl)
    refine C.annotated kind hnote hobject ?_
    rw [isList_eq hobject]
    split
    · exact hpq
    · exact C.places_none

/-- The symbols registered for a backquote correspond, and so do the forms it is made of. -/
theorem agree_backquoted : C.Agree C.Steps (backquoted below here) (backquoted below there) := by
  have hsettles (setting : Setting) : Settles (·.leave .backquote) 0 (do
      let f ← nested below setting
      let pairs ← takeGensyms f
      return .form (← ofExcept (backquote f pairs)) : Read Step) :=
    .bind (settles_nested below setting).seen fun _ => .bind (settles_takeGensyms _) fun _ =>
      .bind (settles_ofExcept _) fun _ => .pure _
  refine agree_within (hsettles here) (hsettles there) (fun _ => rfl) ?_
  exact .bind (agree_nested hbelow) fun _ _ h => .bind (C.takeGensyms h) fun _ _ hgensyms =>
    .bind (.ofExcept (C.backquote h hgensyms)) fun _ _ h => .pure (.form h)

theorem agree_unquoted : C.Agree C.Steps (unquoted below here) (unquoted below there) :=
  agree_nextCharacter_bind fun c => .ite Iff.rfl
    (.restrict (agree_marked hbelow _ Mark.noConfusion) fun _ _ h => h.1)
    (unread_bind_accords c (agree_marked hbelow _ Mark.noConfusion))

theorem agree_conditionalForms (splicing : Bool) {p q : Option Position} (hpq : C.places p q) :
    C.Agree C.Steps
      (do
        let es ← sequence below here ')'
        match conditionalFault? splicing es with
        | some fault => throw (.malformedConditional fault)
        | none => return .form (.group (.conditional splicing p) es) : Read Step)
      (do
        let es ← sequence below there ')'
        match conditionalFault? splicing es with
        | some fault => throw (.malformedConditional fault)
        | none => return .form (.group (.conditional splicing q) es) : Read Step) := by
  refine .bind (agree_sequence hbelow _) fun es fs h => ?_
  rw [conditionalFault?_eq splicing h]
  cases conditionalFault? splicing fs with
  | none => exact .pure (.form (C.conditional splicing h hpq))
  | some fault => exact agree_throw rfl

/-- Conditionals are refused in both, or read alike, unless the first run is excused. -/
theorem agree_conditional : C.Agree C.Steps (conditional below here) (conditional below there) := by
  rcases C.conditionals with hsame | ⟨hhere, hexcused⟩
  · refine .ite hsame (agree_throw rfl) (.bind_eq agree_conditionalOpening fun (c, splicing) => ?_)
    refine .ite Iff.rfl (agree_throw rfl) (.bind agree_position fun p q hpq => ?_)
    exact agree_within (settles_conditionalForms below here splicing p)
      (settles_conditionalForms below there splicing q) (fun _ => rfl)
      (agree_conditionalForms hbelow splicing hpq)
  · unfold conditional
    rw [if_pos hhere]
    exact .excused hexcused

/-- Tagged forms agree as far as the hosts do. -/
theorem agree_tagged : C.Agree C.Steps (tagged below here) (tagged below there) := by
  refine .bind (agree_nested hbelow) fun f g h => ?_
  have hsymbol := toSymbol?_eq h
  cases f <;> cases g <;> cases hsymbol
  case symbol.symbol.refl tag =>
    exact .bind (agree_nested hbelow) fun f g h => .bind agree_scopes fun a b hab =>
      .bind (C.tagged tag hab h) fun _ _ h => .pure (.form h)
  all_goals exact agree_throw rfl

/-- The parenthesis of a function literal is handed back right after it was delivered. -/
theorem function_accords :
    InAccord C.excused C.Delivered C.causes C.States C.Steps (function below here)
      (function below there) := by
  intro s t h
  have hsettles (setting : Setting) : Settles (·.leave .function) 1 (do
      scan (unread '(')
      nested below setting : Read Form) :=
    settles_unread_bind '(' (settles_nested below setting).seen
  -- Leaving undoes entering, since neither run is in a function literal yet.
  have hleave (scopes : Scopes) (hscopes : scopes.inFunction = false) :
      (scopes.enter .function).leave .function = scopes := by
    simp only [Scopes.enter, Scopes.leave, ← hscopes]
  have hinside := C.inFunction_eq h.1.scopes
  rw [function_apply, function_apply, hinside]
  split
  · exact .error (C.causes_refl rfl) h.1
  · rename_i ht
    rw [Bool.not_eq_true] at ht
    have hentered : C.States { s with scopes := s.scopes.enter .function }
        { t with scopes := t.scopes.enter .function } :=
      ⟨h.1.cursor, C.enter .function h.1.scopes, h.1.remaining_eq, h.1.generated⟩
    have hbody : Accords C.excused C.causes C.States C.forms (functionBody below here s)
        (functionBody below there t) :=
      accords_within ((scopes_within (hsettles here) s).trans (hleave _ (hinside.trans ht)))
        ((scopes_within (hsettles there) t).trans (hleave _ ht)) h.1.scopes
        (unread_bind_accords '(' (agree_nested hbelow) _ _ ⟨hentered, h.2⟩)
    exact InAccord.bind (fun _ _ hst => hst)
      (fun _ _ h => .pure (.form (C.marked .function Mark.noConfusion h))) _ _ hbody

/-- Behind a hash sign the two runs take the same construct. -/
theorem startHash_accords (trigger : HashTrigger) :
    InAccord C.excused C.Delivered C.causes C.States C.Steps (startHash below here trigger)
      (startHash below there trigger) := by
  -- Only a function literal needs to know which character was delivered.
  have hloosen {m n : Read Step} (hmn : C.Agree C.Steps m n) :
      InAccord C.excused C.Delivered C.causes C.States C.Steps m n :=
    hmn.restrict fun _ _ h => h.1
  cases trigger with
  | note => exact hloosen (agree_annotated hbelow)
  | var => exact hloosen (agree_marked hbelow _ Mark.noConfusion)
  | pattern => exact hloosen agree_pattern
  | function => exact function_accords hbelow
  | set =>
    exact hloosen <| .bind (agree_sequence hbelow _) fun _ _ h =>
      .pure (.form (C.group h (.inr (.inr (.inl rfl)))))
  | eval =>
    exact hloosen <| .ite_of (by rw [C.evaluation_eq])
      (fun henabled => agree_marked hbelow _ fun _ => henabled) fun _ => agree_throw rfl
  | shebang =>
    exact hloosen <| .bind_eq (agree_scan agrees_line) fun _ =>
      .pure (steps_trivia (C.atom rfl))
  | unreadable => exact hloosen (agree_throw rfl)
  | discard =>
    exact hloosen <| .bind (agree_nested hbelow) fun _ _ h =>
      .pure (steps_trivia (C.marked .discard Mark.noConfusion h))
  | conditional => exact hloosen (agree_conditional hbelow)
  | symbolic => exact hloosen agree_symbolic

theorem agree_hash : C.Agree C.Steps (hash below here) (hash below there) :=
  agree_nextCharacter_bind fun c => by
    cases HashTrigger.ofChar? c with
    | some trigger => exact startHash_accords hbelow trigger
    | none => exact unread_bind_accords c (agree_tagged hbelow)

theorem agree_startTrigger (c : Char) (trigger : Trigger) :
    C.Agree C.Steps (startTrigger below here c trigger) (startTrigger below there c trigger) := by
  cases trigger with
  | string => exact .bind_eq (agree_scan agrees_string) fun _ => .pure (.form (C.atom rfl))
  | comment =>
    exact .bind_eq (agree_scan agrees_line) fun _ => .pure (steps_trivia (C.atom rfl))
  | comma => exact .pure (steps_trivia (C.atom rfl))
  | quote => exact agree_marked hbelow _ Mark.noConfusion
  | deref => exact agree_marked hbelow _ Mark.noConfusion
  | note => exact agree_annotated hbelow
  | backquote => exact agree_backquoted hbelow
  | unquote => exact agree_unquoted hbelow
  | list => exact agree_list hbelow
  | vector =>
    exact .bind (agree_sequence hbelow _) fun _ _ h => .pure (.form (C.group h (.inl rfl)))
  | map => exact agree_map hbelow
  | unmatched => exact agree_throw rfl
  | character => exact .bind_eq (agree_scan agrees_charLiteral) fun _ => .pure (.form (C.atom rfl))
  | arg => exact agree_arg
  | hash => exact agree_hash hbelow

/-- **One step of a level agrees** in the two settings. -/
theorem agree_start (c : Char) : C.Agree C.Steps (start below here c) (start below there c) := by
  refine .ite Iff.rfl (agree_number c) ?_
  split
  · exact agree_startTrigger hbelow _ _
  · exact .ite Iff.rfl (agree_signed c) (agree_token c)

/-! ### Levels -/

/-- Levels accord if the form reader below does with itself. -/
theorem agree_read (closer : Option Char) :
    C.Agree C.Outcomes (read below here closer) (read below there closer) := by
  intro s t h
  -- the induction is on what is left in the second state, as the loop is
  induction hsize : t.size using Nat.strongRecOn generalizing s t with
  | ind n ih =>
    rw [read_eq below here, read_eq below there]
    refine (agree_scan agrees_nextForm s t h).bind fun c _ s₁ t₁ _ ht hc hst => ?_
    subst hc
    cases c with
    | none => exact .ok .endOfInput hst
    | some c =>
      dsimp only
      split
      · exact .ok .closed hst
      · refine (agree_start hbelow c s₁ t₁ hst).bind fun _ _ s₂ t₂ _ ht₂ hstep hst₂ => ?_
        cases hstep with
        | form hfg => exact .ok (.form hfg) hst₂
        | skip =>
          have hle := (settles_start below there c).size_le_of_ok ht₂
          have hlt : t₁.size < n := hsize ▸ size_lt_of_scan_nextForm ht
          exact ih t₂.size (Nat.lt_of_le_of_lt hle hlt) s₂ t₂ hst₂ rfl

end

end Level

/-- Readers of corresponding states accord, however deeply forms may nest. -/
theorem FormReader.agree_nesting {here there : Setting} {C : Read.Comparison here there} :
    ∀ n closer, C.Agree C.Outcomes ((nesting n).run here closer) ((nesting n).run there closer)
  | 0, _ => fun _ _ h => .error (C.causes_refl rfl) h
  | n + 1, closer => Level.agree_read (agree_nesting n) closer

end FormTree
