import FormTree.Proofs.Number.Normal
import FormTree.Proofs.Reader.Token
import FormTree.Proofs.Reader.Yields

/-!
# Readers give legal forms

With the default host every step of a level yields forms that are legal where they stand, if the
form reader below gives such forms. So do levels, however many.
-/

namespace FormTree

open Cursor Read

-- Powers are the core library's here, also below a library with another instance of them.
attribute [local instance (high)] instPowNat

/-- Whether a level finds a legal form, if it finds one. -/
def Outcome.IsLegal (regex : RegexEngine) (options : Options) (F : Frame) : Outcome → Prop
  | .form f => Legal regex options F f
  | _ => True

/-- Whether a step gives a legal form, if it gives one. -/
def Step.IsLegal (regex : RegexEngine) (options : Options) (F : Frame) : Step → Prop
  | .form f => Legal regex options F f
  | .skip => True

/-- How the default host reads. -/
abbrev Setting.standard (regex : RegexEngine) (options : Options) : Setting :=
    ⟨options, .standard regex⟩

/-- Whether a form reader gives legal forms with the default host, and lists after an opening
parenthesis. -/
structure FormReader.IsLegal (regex : RegexEngine) (options : Options) (below : FormReader) :
    Prop where
  yields : ∀ closer F, Yields F (below.run (.standard regex options) closer)
    (Outcome.IsLegal regex options F)
  list : ∀ s k f t, next s.cursor = .ok (some '(') k →
    below.run (.standard regex options) none s = .ok (.form f) t → ∃ info es, f = .list info es

namespace Level

variable {regex : RegexEngine} {options : Options} {F : Frame}

/-- Whether a form is legal one level further down. -/
def LegalInside (regex : RegexEngine) (options : Options) (F : Frame) (f : Form) : Prop :=
  ∃ G : Frame, G.up = F ∧ Legal regex options G f

/-- Whether forms are legal one level further down. -/
def LegalAllInside (regex : RegexEngine) (options : Options) (F : Frame) (es : List Form) : Prop :=
  ∃ G : Frame, G.up = F ∧ LegalAll regex options G es

/-! ### What is asked of parts -/

/-- A checked literal is a string, and is kept. -/
theorem exists_string_of_checked {tag what : String} {valid : String → Bool} {f g : Form}
    (h : DataReader.checked tag what valid f = .ok g) :
    (∃ text, f = .string text) ∧ g = .tagged (.simple tag) f := by
  unfold DataReader.checked at h
  split at h
  · split at h <;> cases h
    exact ⟨⟨_, rfl⟩, rfl⟩
  · cases h

/-- The readers of the default host check the literals of their tags. -/
theorem exists_checked_of_read? {tag : Symbol} {f : Form} {r : Except String Form}
    (h : DataReaders.standard.read? tag f = some r) :
    ∃ name what valid, (name = "inst" ∨ name = "uuid") ∧ tag = .simple name ∧
      r = DataReader.checked name what valid f := by
  simp only [DataReaders.standard, DataReaders.empty, DataReaders.read?,
    List.lookup_nil, List.lookup_cons] at h
  split at h
  · rename_i reader hreader
    split at hreader
    · rename_i htag
      cases hreader
      exact ⟨_, _, _, .inl rfl, eq_of_beq htag, (Option.some.inj h).symm⟩
    · split at hreader <;> cases hreader
      rename_i htag
      exact ⟨_, _, _, .inr rfl, eq_of_beq htag, (Option.some.inj h).symm⟩
  · cases h

/-- The default host keeps tagged forms or refuses them. It looks at the form only if it is a
string. -/
theorem interpretTagged_eq_ok {inConditional : Bool} {tag : Symbol} {f g : Form}
    (h : interpretTagged (.standard regex options) inConditional tag f = .ok g) :
    g = .tagged tag f ∧ ((∃ text, f = .string text) ∨
      ∀ e, interpretTagged (.standard regex options) inConditional tag e =
        .ok (.tagged tag e)) := by
  rw [interpretTagged] at h
  split at h
  · rename_i hkeep
    cases h
    refine ⟨rfl, .inr fun e => ?_⟩
    rw [interpretTagged, if_pos hkeep]
  split at h
  · -- no record types are registered
    cases h
  · split at h
    · rename_i r hr
      cases h
      obtain ⟨name, what, valid, -, rfl, hchecked⟩ := exists_checked_of_read? hr
      obtain ⟨hstring, hg⟩ := exists_string_of_checked hchecked.symm
      exact ⟨hg, .inl hstring⟩
    · cases h
    · cases h

/-- A literal is legal anywhere. -/
theorem legal_of_isLiteral {G : Frame} {f : Form} (h : Legal regex options G f)
    (hf : f.isLiteral = true) : Legal regex options F f := by
  cases h with
  | number _ h => exact .number F h
  | string _ s => exact .string F s
  | keyword _ h => exact .keyword F h
  | charLiteral _ htoken hread => exact .charLiteral F htoken hread
  | _ => cases hf

/-- What a backquote makes of a legal form is legal. -/
theorem legal_of_backquote {f g : Form} {gensyms : List (Symbol × Symbol)}
    (hf : LegalInside regex options F f) (h : backquote f gensyms = .ok g) :
    Legal regex options F g := by
  obtain ⟨G, rfl, hf⟩ := hf
  unfold backquote at h
  split at h
  · cases h
  · rename_i info es
    cases hf with
    | list hinfo hes =>
      simp only [hinfo, if_true] at h
      cases h
      exact .backquoted gensyms (.list hinfo hes) rfl (fun _ h => nomatch h)
  · rename_i hsplicing hlist
    by_cases hliteral : f.isLiteral = true
    · simp only [hliteral, if_true] at h
      cases h
      exact legal_of_isLiteral hf hliteral
    · simp only [hliteral] at h
      cases h
      exact .backquoted gensyms hf (Bool.eq_false_iff.2 hliteral) hsplicing

/-- Trivia that is skipped need not be legal. -/
theorem isLegal_trivia {f : Form} (hf : options.trivia = .keep → Legal regex options F f) :
    Step.IsLegal regex options F (trivia (.standard regex options) f) := by
  rw [trivia]
  split
  · rename_i h
    exact hf h
  · trivial

/-- The index of an argument is not zero, and fits 32 bits. -/
theorem argRef?_index {token : List Char} {n : Nat} (h : argRef? token = some (.index n)) :
    0 < n ∧ n < 2 ^ (32 : Nat) := by
  unfold argRef? at h
  split at h
  · cases h
  · cases h
  · obtain ⟨hn, h⟩ := Option.ite_none_right_eq_some.1 h
    cases h
    simp only [Bool.and_eq_true, decide_eq_true_eq] at hn
    exact ⟨hn.1.2, hn.2⟩

/-! ### Atoms -/

theorem yields_arg : Yields F arg (Step.IsLegal regex options F) := by
  refine .bind (Q := fun _ => True) (.scan fun _ _ _ _ => trivial) fun token _ => ?_
  rcases href : argRef? token.toList.tail with - | ref
  · exact .throw _
  · refine .pure (.arg F fun n hn => ?_)
    rw [hn] at href
    exact argRef?_index href

/-- The host compiles the sources of patterns, and keeps them. -/
theorem yields_pattern : Yields F (pattern (.standard regex options))
    (Step.IsLegal regex options F) := by
  refine .bind (.scan fun _ _ _ h => Scan.isPatternBody_of_pattern h) fun source hbody => ?_
  rcases hread : (Host.standard regex).patterns source with message | f <;> dsimp only
  · exact .throw _
  · obtain rfl := Host.eq_pattern_of_compilePattern hread
    exact .pure (.pattern F hbody hread)

theorem yields_symbolic : Yields F symbolic (Step.IsLegal regex options F) := by
  refine .bind .nextCharacter fun first _ => ?_
  refine .bind (Q := fun _ => True) (.scan fun _ _ _ _ => trivial) fun token _ => ?_
  refine .ite (fun _ => .pure (.number F trivial)) fun _ => ?_
  refine .ite (fun _ => .pure (.number F trivial)) fun _ => ?_
  exact .ite (fun _ => .pure (.number F trivial)) fun _ => .throw _

theorem yields_number (c : Char) : Yields F (number c) (Step.IsLegal regex options F) := by
  refine .bind (Q := Number.IsNormal) (.scan fun k n k' h => ?_) fun n hn => .pure (.number F hn)
  obtain ⟨rest, k₁, -, h⟩ := bind_eq_ok.1 h
  rcases htoken : Number.ofToken? (String.ofList (c :: rest)) with - | m
  · simp only [htoken] at h
    cases h
  · simp only [htoken] at h
    cases h
    exact Number.isNormal_of_ofToken? htoken

/-- A token that begins like one is legal if no digit follows its sign. -/
theorem token_isLegal {c : Char} (hdigit : Text.isDigit c = false) (htrigger : isTrigger c = false)
    (hblank : Text.isBlank c = false) {s t : State} {step : Step} (hs : s.frame = F)
    (hsign : ∀ rest k, takeUntil endsToken s.cursor = .ok rest k →
      ((c == '+' || c == '-') && rest.head?.any Text.isDigit) = false)
    (h : token (.standard regex options) c s = .ok step t) :
    Step.IsLegal regex options F step ∧ t.frame = F := by
  obtain ⟨text, u, htext, h⟩ := bind_eq_ok.1 h
  obtain ⟨k, hk, rfl⟩ := scan_eq_ok.1 htext
  have hplain : Token.isPlain text.toList = true := by
    obtain ⟨rest, hrest, rfl⟩ := Scan.token_eq_ok.1 hk
    have hall := all_of_takeTo hrest
    simp [Token.isPlain, hdigit, htrigger, hblank, hsign rest k hrest, hall]
  have hyields : Yields F (do return .form (← ofExcept (Token.interpret
      Resolver.standard text))) (Step.IsLegal regex options F) :=
    .bind (.ofExcept fun f hf => Token.legal_of_interpret hplain hf) fun f hf => .pure hf
  exact hyields { s with cursor := k } step t hs h

/-- What a token denotes is legal: its text is plain. -/
theorem yields_token {c : Char} (hdigit : Text.isDigit c = false) (htrigger : isTrigger c = false)
    (hblank : Text.isBlank c = false) (hsign : (c == '+' || c == '-') = false) :
    Yields F (token (.standard regex options) c) (Step.IsLegal regex options F) :=
  fun _ _ _ hs h => token_isLegal hdigit htrigger hblank hs (fun _ _ _ => by rw [hsign]; rfl) h

/-- After a sign the next character decides, and is the first one of what is taken next. -/
theorem yields_signed {c : Char} (hdigit : Text.isDigit c = false) (htrigger : isTrigger c = false)
    (hblank : Text.isBlank c = false) :
    Yields F (signed (.standard regex options) c) (Step.IsLegal regex options F) := by
  intro s a t hs h
  obtain ⟨d, u, hd, h⟩ := bind_eq_ok.1 h
  obtain ⟨k, hk, rfl⟩ := scan_eq_ok.1 hd
  have hframe (l : Cursor) : State.frame { s with cursor := l } = F := hs
  rcases d with - | d
  · refine token_isLegal hdigit htrigger hblank (hframe _) (fun rest l hrest => ?_) h
    rcases head?_of_takeTo (next_of_next_none hk) hrest with hhead | hhead <;> simp [hhead]
  · obtain ⟨⟨⟩, v, hv, h⟩ := bind_eq_ok.1 h
    cases hv
    by_cases hd : Text.isDigit d = true
    · rw [if_pos hd] at h
      exact yields_number c _ _ _ (hframe _) h
    · rw [if_neg hd] at h
      refine token_isLegal hdigit htrigger hblank (hframe _) (fun rest l hrest => ?_) h
      obtain ⟨k', hk'⟩ := next_handBack k d
      rcases head?_of_takeTo hk' hrest with hhead | hhead <;> simp [hhead, hd]

theorem yields_nextNonBlank : Yields F nextNonBlank fun _ => True := by
  refine .bind (Q := fun _ => True) (.scan fun _ _ _ _ => trivial) fun c _ => ?_
  rcases c with - | c
  · exact .throw _
  · exact .pure trivial

theorem yields_conditionalOpening : Yields F conditionalOpening fun _ => True := by
  refine .bind .nextCharacter fun c _ => .ite (fun _ => ?_) fun _ => .ite (fun _ => ?_) fun _ => ?_
  · exact .bind yields_nextNonBlank fun _ _ => .pure trivial
  · exact .bind yields_nextNonBlank fun _ _ => .pure trivial
  · exact .pure trivial

theorem yields_takeGensyms (f : Form) : Yields F (takeGensyms f) fun _ => True := by
  intro s a t hs h
  rw [takeGensyms] at h
  split at h <;> cases h <;> exact ⟨trivial, hs⟩

/-! ### Steps -/

section

variable {below : FormReader} (hbelow : below.IsLegal regex options)
include hbelow

/-- Forms one level further down are legal inside of the form that they are part of. -/
theorem yields_nested : Yields F (nested below (.standard regex options))
    (LegalInside regex options F) := by
  refine .descend fun G hG => .bind (hbelow.yields none G) fun r hr => ?_
  rcases r with f | - | -
  · exact .pure ⟨G, hG, hr⟩
  · exact .throw _
  · exact .throw _

/-- The elements of a sequence are legal where it is. -/
theorem yields_collect (line : Option Nat) (close : Char) :
    Yields F (collect below (.standard regex options) line close) (LegalAll regex options F) := by
  intro s es t hs h
  fun_induction collect below (.standard regex options) line close s generalizing es with
  | case1 s f s₁ hr fs s₂ hrest ih =>
    cases h
    obtain ⟨hf, hs₁⟩ := hbelow.yields _ F _ _ _ hs hr
    obtain ⟨hfs, hs₂⟩ := ih fs hs₁ hrest
    exact ⟨.cons hf hfs, hs₂⟩
  | case2 => cases h
  | case3 s s₁ hr =>
    cases h
    exact ⟨.nil F, (hbelow.yields _ F _ _ _ hs hr).2⟩
  | case4 => cases h
  | case5 => cases h

/-- A sequence takes a level, and its elements are legal below that. -/
theorem yields_sequence (close : Char) :
    Yields F (sequence below (.standard regex options) close) (LegalAllInside regex options F) := by
  refine .bind .position fun _ _ => .descend fun G hG => ?_
  exact (yields_collect hbelow _ close).mono fun es hes => ⟨G, hG, hes⟩

/-- A form with a mark is legal where the mark may stand. -/
theorem yields_marked {mark : Mark} (hfunction : mark ≠ .function) (hdiscard : mark ≠ .discard) :
    Yields F (marked below (.standard regex options) mark) (Step.IsLegal regex options F) := by
  refine .bind (yields_nested hbelow) fun f hf => .pure ?_
  obtain ⟨G, rfl, hf⟩ := hf
  exact .marked hfunction (fun h => absurd h hdiscard) hf

/-- A list is legal if its elements are. -/
theorem yields_list : Yields F (list below (.standard regex options))
    (Step.IsLegal regex options F) := by
  refine .bind .position fun position _ => .bind (yields_sequence hbelow _) fun es hes => .pure ?_
  obtain ⟨G, rfl, hes⟩ := hes
  refine .list ?_ hes
  split
  · rfl
  · exact Metadata.isEmpty_withoutPosition_at? position

theorem yields_map : Yields F (map below (.standard regex options))
    (Step.IsLegal regex options F) := by
  refine .bind (yields_sequence hbelow _) fun es hes =>
    .ite (fun _ => .throw _) fun heven => .pure ?_
  obtain ⟨G, rfl, hes⟩ := hes
  simp only [beq_iff_eq] at heven
  exact .map hes (by omega)

/-- An annotated form is legal: its note is one, and its object may be annotated. -/
theorem yields_annotated :
    Yields F (annotated below (.standard regex options)) (Step.IsLegal regex options F) := by
  refine .bind .position fun position _ => .bind (yields_nested hbelow) fun note hnote => ?_
  rcases hkind : noteKind? note with - | kind
  · exact .throw _
  · refine .bind (yields_nested hbelow) fun object hobject => ?_
    refine .ite (fun hannotatable => .pure ?_) fun _ => .throw _
    obtain ⟨G, rfl, hnote⟩ := hnote
    obtain ⟨G', hG, hobject⟩ := hobject
    obtain rfl := Frame.up_injective hG
    exact .annotated _ hnote hobject hkind hannotatable

/-- A backquoted form is legal: it is no literal, and no splicing unquote. -/
theorem yields_backquoted :
    Yields F (backquoted below (.standard regex options)) (Step.IsLegal regex options F) := by
  refine .within_backquote (.bind (yields_nested hbelow) fun f hf => ?_)
  refine .bind (Q := fun _ => True) ?_ fun gensyms _ => ?_
  · exact yields_takeGensyms f
  · exact .bind (.ofExcept fun g hg => legal_of_backquote hf hg) fun g hg => .pure hg

theorem yields_unquoted :
    Yields F (unquoted below (.standard regex options)) (Step.IsLegal regex options F) := by
  refine .bind .nextCharacter fun c _ => .ite (fun _ => ?_) fun _ => ?_
  · exact yields_marked hbelow (by decide) (by decide)
  · exact .bind (.scan fun _ _ _ _ => trivial) fun _ _ =>
      yields_marked hbelow (by decide) (by decide)

/-- A conditional is legal: it has passed its check. -/
theorem yields_conditional :
    Yields F (conditional below (.standard regex options)) (Step.IsLegal regex options F) := by
  refine .ite (fun _ => .throw _) fun hmode => ?_
  refine .bind (Q := fun _ => True) yields_conditionalOpening fun (c, splicing) _ => ?_
  refine .ite (fun _ => .throw _) fun _ => .bind .position fun position _ => ?_
  refine .within_conditional (.bind (yields_sequence hbelow _) fun es hes => ?_)
  rcases hfault : conditionalFault? splicing es with - | fault
  · refine .pure ?_
    obtain ⟨⟨inFunction, conditionals, remaining⟩, hG, hes⟩ := hes
    rcases F with ⟨_, _, _⟩
    simp only [Frame.up, Frame.mk.injEq] at hG
    obtain ⟨rfl, rfl, rfl⟩ := hG
    exact .conditional _ hmode hes hfault
  · exact .throw _

/-- A tagged form is legal: the host gives it back. -/
theorem yields_tagged : Yields F (tagged below (.standard regex options))
    (Step.IsLegal regex options F) := by
  refine .bind (yields_nested hbelow) fun tag htag => ?_
  split
  · rename_i tag
    refine .bind (yields_nested hbelow) fun f hf => .bind .scopes fun scopes hscopes => ?_
    refine .bind (.ofExcept fun g hg => ?_) fun g hg => .pure hg
    obtain ⟨G, rfl, htag⟩ := htag
    obtain ⟨G', hG, hf⟩ := hf
    obtain rfl := Frame.up_injective hG
    rw [hscopes] at hg
    obtain rfl := (interpretTagged_eq_ok hg).1
    exact .tagged htag hf hg
  · exact .throw _

/-- The form of a function literal begins with its parenthesis, and so is a list. -/
theorem exists_list_of_functionBody {s t : State} {f : Form}
    (h : functionBody below (.standard regex options) s = .ok f t) :
    ∃ info es, f = .list info es := by
  obtain ⟨u, h, -⟩ := mapState_eq_ok.1 h
  obtain ⟨⟨⟩, v, hv, h⟩ := bind_eq_ok.1 h
  cases hv
  rw [nested, descend] at h
  split at h
  · cases h
  · obtain ⟨w, h, -⟩ := mapState_eq_ok.1 h
    obtain ⟨r, w', hr, h⟩ := bind_eq_ok.1 h
    rcases r with g | - | -
    · cases h
      obtain ⟨k, hk⟩ := next_handBack s.cursor '('
      exact hbelow.list _ k f _ hk hr
    · cases h
    · cases h

/-- A function literal is legal: there is none around it, and it is a list. -/
theorem yields_function : Yields F (function below (.standard regex options))
    (Step.IsLegal regex options F) := by
  intro s a t hs h
  rw [function_apply] at h
  split at h
  · cases h
  · rename_i hfunction
    obtain ⟨body, u, hbody, h⟩ := bind_eq_ok.1 h
    cases h
    have hF : F.inFunction = false := by
      rw [← hs]
      exact Bool.eq_false_iff.2 hfunction
    have hyields : Yields F (functionBody below (.standard regex options))
        (LegalInside regex options { F with inFunction := true }) :=
      .within_function hF <| .bind (Q := fun _ => True) (.scan fun _ _ _ _ => trivial) fun _ _ =>
        yields_nested hbelow
    obtain ⟨hlegal, hu⟩ := hyields s body _ hs hbody
    obtain ⟨info, es, rfl⟩ := exists_list_of_functionBody hbelow hbody
    refine ⟨?_, hu⟩
    obtain ⟨⟨_, _, _⟩, hG, hlegal⟩ := hlegal
    rcases F with ⟨_, _, _⟩
    cases hF
    cases hG
    exact .function hlegal

theorem yields_startHash (trigger : HashTrigger) :
    Yields F (startHash below (.standard regex options) trigger)
      (Step.IsLegal regex options F) := by
  cases trigger with
  | note => exact yields_annotated hbelow
  | var => exact yields_marked hbelow (by decide) (by decide)
  | pattern => exact yields_pattern
  | function => exact yields_function hbelow
  | set =>
    refine .bind (yields_sequence hbelow _) fun es hes => .pure ?_
    obtain ⟨G, rfl, hes⟩ := hes
    exact .set hes
  | eval =>
    have hmarked : Yields F (marked below (.standard regex options) .eval)
        (Step.IsLegal regex options F) :=
      yields_marked hbelow (by decide) (by decide)
    unfold startHash
    exact .ite (fun _ => hmarked) fun _ => .throw _
  | shebang =>
    refine .bind (.scan fun _ _ _ h => Scan.all_of_line h) fun text htext => .pure ?_
    exact isLegal_trivia fun hkeep => .comment F .shebang htext hkeep
  | unreadable => exact .throw _
  | discard =>
    refine .bind (yields_nested hbelow) fun f hf => .pure (isLegal_trivia fun hkeep => ?_)
    obtain ⟨G, rfl, hf⟩ := hf
    exact .marked (by decide) (fun _ => hkeep) hf
  | conditional => exact yields_conditional hbelow
  | symbolic => exact yields_symbolic

theorem yields_hash : Yields F (hash below (.standard regex options))
    (Step.IsLegal regex options F) := by
  refine .bind .nextCharacter fun c _ => ?_
  rcases HashTrigger.ofChar? c with - | trigger
  · exact .bind (Q := fun _ => True) (.scan fun _ _ _ _ => trivial) fun _ _ => yields_tagged hbelow
  · exact yields_startHash hbelow trigger

theorem yields_startTrigger (c : Char) (trigger : Trigger) :
    Yields F (startTrigger below (.standard regex options) c trigger)
      (Step.IsLegal regex options F) := by
  cases trigger with
  | string =>
    exact .bind (Q := fun _ => True) (.scan fun _ _ _ _ => trivial) fun s _ => .pure (.string F s)
  | comment =>
    refine .bind (.scan fun _ _ _ h => Scan.all_of_line h) fun text htext => .pure ?_
    exact isLegal_trivia fun hkeep => .comment F .line htext hkeep
  | comma => exact .pure (isLegal_trivia fun hkeep => .comma F hkeep)
  | quote => exact yields_marked hbelow (by decide) (by decide)
  | deref => exact yields_marked hbelow (by decide) (by decide)
  | note => exact yields_annotated hbelow
  | backquote => exact yields_backquoted hbelow
  | unquote => exact yields_unquoted hbelow
  | list => exact yields_list hbelow
  | vector =>
    refine .bind (yields_sequence hbelow _) fun es hes => .pure ?_
    obtain ⟨G, rfl, hes⟩ := hes
    exact .vector hes
  | map => exact yields_map hbelow
  | unmatched => exact .throw _
  | character =>
    refine .bind (.scan fun _ _ _ h => Scan.isCharToken_of_charLiteral h) fun (token, value) h => ?_
    exact .pure (.charLiteral F h.1 h.2)
  | arg => exact yields_arg
  | hash => exact yields_hash hbelow

/-- **One step of a level yields legal forms**, whatever character it begins with. -/
theorem yields_start {c : Char} (hblank : Text.isBlank c = false) :
    Yields F (start below (.standard regex options) c) (Step.IsLegal regex options F) := by
  refine .ite (fun _ => yields_number c) fun hdigit => ?_
  have hdigit := Bool.eq_false_iff.2 hdigit
  rcases htrigger : Trigger.ofChar? c with - | trigger
  · have hnone : isTrigger c = false := by rw [isTrigger, htrigger]; rfl
    refine .ite (fun _ => yields_signed hdigit hnone hblank) fun hsign => ?_
    exact yields_token hdigit hnone hblank (Bool.eq_false_iff.2 hsign)
  · exact yields_startTrigger hbelow c trigger

/-! ### Levels -/

/-- A level yields a legal form, or none. -/
theorem yields_read (closer : Option Char) :
    Yields F (read below (.standard regex options) closer) (Outcome.IsLegal regex options F) := by
  intro s out t hs h
  have hkeep : Yields F (scan nextForm) fun c => ∀ d, c = some d → Text.isBlank d = false :=
    .scan fun _ _ _ h d hd => isBlank_of_nextForm (hd ▸ h)
  fun_induction read below (.standard regex options) closer s generalizing out with
  | case1 s e s₁ hc => cases h
  | case2 s s₁ hc =>
    cases h
    exact ⟨trivial, (hkeep _ _ _ hs hc).2⟩
  | case3 s c s₁ hc _ =>
    cases h
    exact ⟨trivial, (hkeep _ _ _ hs hc).2⟩
  | case4 => cases h
  | case5 s c s₁ hc _ f s₂ hf =>
    cases h
    obtain ⟨hblank, hs₁⟩ := hkeep _ _ _ hs hc
    exact yields_start hbelow (hblank c rfl) s₁ _ _ hs₁ hf
  | case6 s c s₁ hc _ s₂ hf ih =>
    obtain ⟨hblank, hs₁⟩ := hkeep _ _ _ hs hc
    exact ih out (yields_start hbelow (hblank c rfl) s₁ _ _ hs₁ hf).2 h

end

/-- Behind a parenthesis a list is read, or nothing. -/
theorem exists_list_of_list {below : FormReader} {setting : Setting} {s t : State} {step : Step}
    (h : list below setting s = .ok step t) : ∃ info es, step = .form (.list info es) := by
  obtain ⟨position, u, -, h⟩ := bind_eq_ok.1 h
  obtain ⟨es, v, -, h⟩ := bind_eq_ok.1 h
  cases h
  exact ⟨_, es, rfl⟩

/-- After an opening parenthesis a level gives a list. -/
theorem exists_list_of_read {below : FormReader} {s t : State} {k : Cursor} {f : Form}
    (hk : next s.cursor = .ok (some '(') k)
    (h : read below (.standard regex options) none s = .ok (.form f) t) :
    ∃ info es, f = .list info es := by
  have hform : nextForm s.cursor = .ok (some '(') k := by
    rw [nextForm.eq_def, hk]
    rfl
  have hscan : scan nextForm s = .ok (some '(') { s with cursor := k } :=
    scan_eq_ok.2 ⟨k, hform, rfl⟩
  have hstart : start below (.standard regex options) '(' =
      list below (.standard regex options) := rfl
  rw [read.eq_def, hscan] at h
  dsimp only at h
  rw [if_neg (by decide), hstart] at h
  rcases hlist : list below (.standard regex options) { s with cursor := k } with ⟨step, u⟩ | ⟨e, u⟩
  · obtain ⟨info, es, rfl⟩ := exists_list_of_list hlist
    rw [hlist] at h
    cases h
    exact ⟨info, es, rfl⟩
  · rw [hlist] at h
    cases h

end Level

/-- With the default host readers of any number of levels give legal forms. -/
theorem FormReader.isLegal_nesting (regex : RegexEngine) (options : Options) :
    ∀ n, (nesting n).IsLegal regex options
  | 0 => ⟨fun _ _ _ _ _ _ h => (nomatch h), fun _ _ _ _ _ h => nomatch h⟩
  | n + 1 =>
    ⟨fun closer _ => Level.yields_read (isLegal_nesting regex options n) closer,
      fun _ _ _ _ hk h => Level.exists_list_of_read hk h⟩

end FormTree
