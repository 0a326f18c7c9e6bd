import FormTree.Proofs.Reader.Blind
import FormTree.Proofs.Session.Compared

/-!
# Sessions keep nothing between calls

What a session keeps from one call to the next is what is left to read and how it reads. Calls that
fail at any depth leave the scopes clear and the nesting budget whole, and so a session goes on as
one that begins with what is left: its answers are alike to those of that one.
-/

namespace FormTree

/-- Whether two errors are the same up to positions. -/
structure ErrorAlike (e f : ReadError) : Prop where
  cause : CauseAlike e.cause f.cause
  isSome_position_eq : e.position.isSome = f.position.isSome

namespace Session

/-! ### Calls on alike sessions -/

/-- Whether two sessions with a blind host are the same up to positions and generated names. -/
structure Alike (p q : Session) : Prop where
  options_eq : p.options = q.options
  host_eq : p.host = q.host
  isBlind : p.host.IsBlind
  state : p.state.Alike q.state

/-- Whether two calls on alike sessions give alike answers. -/
abbrev CallAlike {α β : Type} (R : α → β → Prop) (m : Call α) (n : Call β) : Prop :=
  Respects Session.Alike ErrorAlike Session.Alike R m n

/-- Calls that accord, with what alike readings have in common, give alike answers. -/
theorem callAlike_of_agrees {α β : Type} {R : α → β → Prop} {m : Call α} {n : Call β}
    (hmn : ∀ setting hhost, CallsAgree (Read.Comparison.alike setting hhost) R m n) :
    CallAlike R m n := by
  intro p q h
  have hsetting : q.setting = p.setting := by
    rw [setting, setting, h.options_eq, h.host_eq]
  have hcompared : Compared (Read.Comparison.alike p.setting h.isBlind) p q :=
    ⟨rfl, hsetting, h.state.cursor, h.state.scopes, h.state.remaining_eq, trivial⟩
  -- sessions that correspond have one setting, that of the first one before the call
  have hback {p' q' : Session} (h' : Compared (Read.Comparison.alike p.setting h.isBlind) p' q') :
      Session.Alike p' q' := by
    have hhost : p'.host = p.host := congrArg Setting.host h'.here_eq
    have heq := h'.here_eq.trans h'.there_eq.symm
    exact ⟨congrArg Setting.options heq, congrArg Setting.host heq, hhost ▸ h.isBlind,
      h'.state.cursor, h'.state.scopes, h'.state.remaining_eq⟩
  have hr := (hmn p.setting h.isBlind p q hcompared).related fun _ => False.elim
  generalize m p = r at hr
  generalize n q = u at hr
  cases hr with
  | ok hvalue hstate => exact .ok hvalue (hback hstate)
  | error herror hstate => exact .error ⟨herror.cause, herror.position⟩ (hback hstate)

/-- Reading everything ahead goes alike. -/
theorem alike_readAll : CallAlike AlikeAll readAll readAll :=
  callAlike_of_agrees fun _ _ p q h => (readAll_agrees p q h).imp fun _ _ => .of_forall₂

/-- The answers to a call on alike sessions are alike. -/
theorem alike_call (r : Request) : CallAlike (Option.Rel FormTree.Alike) (call r) (call r) := by
  refine callAlike_of_agrees fun _ _ p q h => (call_agrees rfl r p q h).imp fun f g hfg => ?_
  cases hfg with
  | none => exact .none
  | form h => exact .some h
  | atEnd _ => exact .some (.refl _)

/-- Whether the answers to some calls are alike. -/
abbrev AnswersAlike (as bs : List (Except ReadError (Option Form))) : Prop :=
  List.Forall₂ (ExceptRel ErrorAlike (Option.Rel FormTree.Alike)) as bs

/-- Alike sessions answer alike, whatever calls are made. -/
theorem Alike.answersAlike {p q : Session} (h : p.Alike q) (rs : List Request) :
    AnswersAlike (p.answers rs) (q.answers rs) := by
  induction rs generalizing p q with
  | nil => exact .nil
  | cons r rs ih =>
    have hr := alike_call r p q h
    unfold answers
    generalize call r p = a at hr
    generalize call r q = b at hr
    cases hr with
    | ok hvalue hstate => exact .cons (.ok hvalue) (ih hstate)
    | error herror hstate => exact .cons (.error herror) (ih hstate)

/-- A session on a text is alike to one on what that text left to read. -/
theorem ofText_alike {text : String} {regex : RegexEngine} {options : Options} {p : Session}
    {left : List Char} (hframe : (ofText regex text options).SameFrame p)
    (hpending : p.state.cursor.pending = left.map .ok) (htracked : p.state.cursor.tracked = true) :
    (ofText regex (String.ofList left) options).Alike p := by
  refine ⟨hframe.options_eq.symm, hframe.host_eq.symm, Host.isBlind_standard regex, ?_⟩
  refine ⟨⟨?_, htracked.symm⟩, ?_, hframe.state.2.symm⟩
  · rw [hpending]
    exact congrArg (List.map Except.ok) String.toList_ofList
  · have hscopes : p.state.scopes = .none := hframe.state.1
    rw [hscopes]
    exact .refl .none

/-- **A session keeps nothing between calls.** After any calls the scopes are clear and the nesting
budget is whole, and the answer to the next call is alike to that of a session that begins with what
is left to read. -/
theorem call_after_alike_restart (k : Cursor) (options : Options) (host : Host)
    (hhost : host.IsBlind) (rs : List Request) (r : Request) :
    let p := (ofCursor k options host).after rs
    p.state.scopes.gensyms = [] ∧ p.state.scopes.inFunction = false ∧
      p.state.scopes.conditionals = 0 ∧ p.state.remaining = 256 ∧
        Related ErrorAlike Session.Alike (Option.Rel FormTree.Alike) (call r p)
          (call r (ofCursor p.state.cursor.restart options host)) := by
  intro p
  have h : (ofCursor k options host).SameFrame p := sameFrame_after _ rs
  have hscopes : p.state.scopes = .none := h.state.1
  have hremaining : p.state.remaining = nestingLimit := h.state.2
  have halike : p.Alike (ofCursor p.state.cursor.restart options host) := by
    refine ⟨h.options_eq, h.host_eq, h.host_eq.symm ▸ hhost, ?_⟩
    exact ⟨Cursor.alike_restart _, hscopes ▸ Scopes.Alike.refl .none, hremaining⟩
  refine ⟨?_, ?_, ?_, hremaining, alike_call r _ _ halike⟩
  all_goals rw [hscopes]; rfl

/-- A function literal inside of another one fails two levels down, and leaves nothing. -/
theorem call_after_nested_function_alike_restart :
    (Host.standard .lenient).IsBlind ∧
      let p := (ofCursor (.ofText "(#(f #(g)) (h") .standard (.standard .lenient)).after [.read]
      p.state.scopes.gensyms = [] ∧ p.state.scopes.inFunction = false ∧
        p.state.scopes.conditionals = 0 ∧ p.state.remaining = 256 ∧
          Related ErrorAlike Session.Alike (Option.Rel FormTree.Alike) (call .readToEnd p)
            (call .readToEnd (ofCursor p.state.cursor.restart .standard (.standard .lenient))) :=
  ⟨Host.isBlind_standard _, call_after_alike_restart _ _ _ (Host.isBlind_standard _) _ _⟩

end Session

end FormTree
