import FormTree.Proofs.Reader.Parses

/-!
# What is read is spelled

Whatever a level reads, the grammar says so: the form, and every position in it, belongs to the text
between the spots where reading began and where it ended. A level that fails has moved on in the
same text.
-/

namespace FormTree

open Cursor Read

/-! ### Frames of scopes -/

/-- A level below the inside of a conditional is the inside of one on a level below. -/
theorem Frame.exists_of_up_eq_conditional {F G : Frame}
    (h : G.up = { F with conditionals := F.conditionals + 1 }) :
    ∃ H : Frame, H.up = F ∧ G = { H with conditionals := H.conditionals + 1 } := by
  rcases F with ⟨inFunction, conditionals, remaining⟩
  rcases G with ⟨_, _, remaining⟩
  simp only [Frame.up, Frame.mk.injEq] at h
  obtain ⟨rfl, rfl, rfl⟩ := h
  exact ⟨⟨_, conditionals, remaining⟩, rfl, rfl⟩

/-- A level below the inside of a function literal is the inside of one on a level below. -/
theorem Frame.exists_of_up_eq_function {F G : Frame} (h : G.up = { F with inFunction := true }) :
    ∃ H : Frame, H.up = F ∧ G = { H with inFunction := true } := by
  rcases F with ⟨inFunction, conditionals, remaining⟩
  rcases G with ⟨_, _, remaining⟩
  simp only [Frame.up, Frame.mk.injEq] at h
  obtain ⟨rfl, rfl, rfl⟩ := h
  exact ⟨⟨inFunction, _, remaining⟩, rfl, rfl⟩

/-! ### Characters of triggers -/

/-- The character that a trigger stands for. Closing delimiters are three, of which this is one. -/
def Trigger.char : Trigger → Char
  | .string => '"'
  | .hash => '#'
  | .arg => '%'
  | .quote => '\''
  | .list => '('
  | .unmatched => ')'
  | .comma => ','
  | .comment => ';'
  | .deref => '@'
  | .vector => '['
  | .character => '\\'
  | .note => '^'
  | .backquote => '\x60'
  | .map => '\x7b'
  | .unquote => '~'

/-- The character that stands for a construct after a hash sign. -/
def HashTrigger.char : HashTrigger → Char
  | .shebang => '!'
  | .pattern => '"'
  | .symbolic => '#'
  | .var => '\''
  | .function => '('
  | .unreadable => '<'
  | .eval => '='
  | .conditional => '?'
  | .note => '^'
  | .discard => '_'
  | .set => '\x7b'

/-- A trigger is that of one character, unless it is for closing delimiters. -/
theorem Trigger.char_eq {c : Char} {trigger : Trigger} (h : Trigger.ofChar? c = some trigger)
    (hne : trigger ≠ .unmatched) : trigger.char = c := by
  unfold Trigger.ofChar? at h
  split at h <;> cases h <;> first | rfl | exact absurd rfl hne

/-- Behind a hash sign, a trigger is that of one character. -/
theorem HashTrigger.char_eq {c : Char} {trigger : HashTrigger}
    (h : HashTrigger.ofChar? c = some trigger) : trigger.char = c := by
  unfold HashTrigger.ofChar? at h
  split at h <;> cases h <;> rfl

/-! ### What is spelled -/

variable {setting : Setting} {F : Frame} {p q r : Spot}

/-- Whether what a construct gives is spelled between two places. -/
def Step.IsSpelled (setting : Setting) (F : Frame) (p : Spot) : Step → Spot → Prop
  | .form f, q =>
    Spells setting true F p f q ∨
      setting.options.trivia = .keep ∧ SpellsTrivia setting true F p f q
  | .skip, q => setting.options.trivia = .skip ∧ ∃ f, SpellsTrivia setting true F p f q

/-- Whether what a level finds is spelled between two places. -/
def Outcome.IsSpelled (setting : Setting) (closer : Option Char) (F : Frame) (p : Spot) :
    Outcome → Spot → Prop
  | .form f, q => SpellsNext setting true F p f q
  | .endOfInput, q => SpellsAll setting true F p [] q ∧ q.ahead = []
  | .closed, q => ∃ c r, closer = some c ∧ SpellsAll setting true F p [] r ∧ r.Takes [c] q

/-- Whether all that a form reader reads is spelled. -/
def FormReader.IsSound (setting : Setting) (below : FormReader) : Prop :=
  ∀ closer F p, Parses F p (below.run setting closer) (Outcome.IsSpelled setting closer F p)

/-- Elements may be preceded by a form. -/
theorem SpellsNext.cons {loose : Bool} {f : Form} {es : List Form}
    (hrest : SpellsAll setting loose F q es r) : ∀ {p : Spot},
      SpellsNext setting loose F p f q → SpellsAll setting loose F p (f :: es) r
  | _, .form hblanks h => .form hblanks h hrest
  | _, .kept _ hmode hblanks h => .kept hmode hblanks h hrest
  | _, .skipped _ hmode hblanks h hnext => .skipped hmode hblanks h (hnext.cons hrest)

/-- Trivia that is skipped may stand before whatever a level finds. -/
theorem Outcome.IsSpelled.skipped {closer : Option Char} {f : Form} {out : Outcome} {t : Spot}
    (hmode : setting.options.trivia = .skip) (hblanks : p.Blanks q)
    (hf : SpellsTrivia setting true F q f r) (h : out.IsSpelled setting closer F r t) :
    out.IsSpelled setting closer F p t := by
  cases out with
  | form g => exact SpellsNext.skipped rfl hmode hblanks hf h
  | endOfInput => exact ⟨.skipped hmode hblanks hf h.1, h.2⟩
  | closed =>
    obtain ⟨c, u, hcloser, hall, hc⟩ := h
    exact ⟨c, u, hcloser, .skipped hmode hblanks hf hall, hc⟩

namespace Level

variable {below : FormReader}

/-- Trivia is kept or skipped, and was spelled in the text either way. -/
theorem isSpelled_trivia {f : Form} (h : SpellsTrivia setting true F p f q) :
    (trivia setting f).IsSpelled setting F p q := by
  rw [trivia]
  rcases hmode : setting.options.trivia with - | -
  · exact .inr ⟨hmode, h⟩
  · exact ⟨hmode, f, h⟩

/-! ### Atoms -/

theorem parses_number {c : Char} (hc : p.Takes [c] q) (hbegins : beginsNumber c q.ahead = true) :
    Parses F q (number c) (Step.IsSpelled setting F p) :=
  .bind (.scan (Scan.keeps_number c)) fun _ _ h => .pure (.inl (.number hc hbegins h))

/-- What is read from a token was spelled as what it denotes. -/
theorem parses_token {c : Char} (hc : p.Takes [c] q) (htrigger : isTrigger c = false)
    (hblank : Text.isBlank c = false) (hbegins : beginsNumber c q.ahead = false) :
    Parses F q (token setting c) (Step.IsSpelled setting F p) := by
  refine .bind (.scan (Scan.keeps_token c)) fun text r h => .bind .ofExcept ?_
  rintro f _ ⟨rfl, hread⟩
  exact .pure (.inl (.token hc ⟨htrigger, hblank, hbegins⟩ h hread))

/-- After a sign the next character decides. -/
theorem parses_signed {c : Char} (hc : p.Takes [c] q) (hdigit : Text.isDigit c = false)
    (htrigger : isTrigger c = false) (hblank : Text.isBlank c = false) (hsign : isSign c = true) :
    Parses F q (signed setting c) (Step.IsSpelled setting F p) := by
  refine .next_bind (fun hnil => ?_) fun d => ?_
  · refine parses_token hc htrigger hblank ?_
    simp [beginsNumber, hdigit, hnil]
  · refine .unread_bind fun hhead => .ite (fun hd => ?_) fun hd => ?_
    · exact parses_number hc (by simp [beginsNumber, hsign, hhead, hd])
    · exact parses_token hc htrigger hblank (by simp [beginsNumber, hdigit, hhead, hd])

theorem parses_arg (hc : p.Takes ['%'] q) : Parses F q arg (Step.IsSpelled setting F p) := by
  refine .bind (.scan (Scan.keeps_token _)) fun text r h => ?_
  rcases href : argRef? text.toList.tail with - | ref
  · exact .throw _
  · exact .pure (.inl (.arg hc h href))

/-- What is read from a pattern was spelled as what the host makes of it. -/
theorem parses_pattern (hc : p.Takes ['#', '"'] q) :
    Parses F q (pattern setting) (Step.IsSpelled setting F p) := by
  refine .bind (.scan Scan.keeps_pattern) fun source r h => ?_
  rcases hread : setting.host.patterns source with message | f
  · exact .throw _
  · exact .pure (.inl (.pattern hc h hread))

theorem parses_symbolic (hc : p.Takes ['#', '#'] q) :
    Parses F q symbolic (Step.IsSpelled setting F p) := by
  refine .nextCharacter_bind fun c => .past fun r hr => ?_
  refine .bind (.scan (Scan.keeps_token c)) fun text t h => ?_
  have hvalue (x : Binary64) (hx : symbolicValue? text = some x) :
      Parses F t (pure (.form (.number (.float x)))) (Step.IsSpelled setting F p) :=
    .pure (.inl (.symbolic (hc.trans hr) h hx))
  refine .ite (fun h₁ => hvalue _ ?_) fun h₁ => ?_
  · rw [symbolicValue?, if_pos h₁]
  refine .ite (fun h₂ => hvalue _ ?_) fun h₂ => ?_
  · rw [symbolicValue?, if_neg h₁, if_pos h₂]
  refine .ite (fun h₃ => hvalue _ ?_) fun h₃ => .throw _
  · rw [symbolicValue?, if_neg h₁, if_neg h₂, if_pos h₃]

/-! ### Parts -/

section

variable (hbelow : below.IsSound setting)
include hbelow

/-- A form one level further down. -/
theorem parses_nested :
    Parses F p (nested below setting) fun f q => ∃ G : Frame, G.up = F ∧
      SpellsNext setting true G p f q := by
  refine .descend fun G hG => .bind (hbelow none G p) fun out q hout => ?_
  cases out with
  | form f => exact .pure ⟨G, hG, hout⟩
  | endOfInput => exact .throw _
  | closed => exact .throw _

/-- Elements are spelled one after the other, and the closing delimiter is right behind them. -/
theorem parses_collect (line : Option Nat) (close : Char) :
    Parses F p (collect below setting line close : Read (List Form)) fun es q =>
      ∃ r, SpellsAll setting true F p es r ∧ r.Takes [close] q := by
  intro s hs hp
  have hrun := hbelow (some close) F p s hs hp
  -- each turn of the loop begins where the form before it ended
  fun_induction collect below setting line close s generalizing p with
  | case1 s f s₁ h fs s₂ hr ih =>
    obtain ⟨hs₁, q, hq, htext, hf⟩ := hrun.of_ok h
    have hrest := (ih hs₁ hq (hbelow _ _ _ _ hs₁ hq)).of_text_eq htext
    obtain ⟨hs₂, t, ht, htext, r, hall, hclose⟩ := hrest.of_ok hr
    exact ⟨hs₂, t, ht, htext, r, hf.cons hall, hclose⟩
  | case2 s f s₁ h e s₂ hr ih =>
    obtain ⟨hs₁, q, hq, htext, -⟩ := hrun.of_ok h
    exact ((ih hs₁ hq (hbelow _ _ _ _ hs₁ hq)).of_text_eq htext).of_error hr
  | case3 s s₁ h =>
    obtain ⟨hs₁, q, hq, htext, c, r, hclose, hall, hc⟩ := hrun.of_ok h
    cases hclose
    exact ⟨hs₁, q, hq, htext, r, hall, hc⟩
  | case4 s s₁ h =>
    obtain ⟨-, q, hq, htext, -⟩ := hrun.of_ok h
    exact ⟨q, hq, htext⟩
  | case5 s e s₁ h => exact hrun.of_error h

/-- The elements of a sequence, one level further down. -/
theorem parses_sequence (close : Char) :
    Parses F p (sequence below setting close) fun es q => ∃ (G : Frame) (r : Spot), G.up = F ∧
      SpellsAll setting true G p es r ∧ r.Takes [close] q := by
  refine .bind .position ?_
  rintro position _ ⟨rfl, -⟩
  refine .descend fun G hG => (parses_collect hbelow _ close).mono fun es q h => ?_
  obtain ⟨r, hall, hclose⟩ := h
  exact ⟨G, r, hG, hall, hclose⟩

/-! ### Constructs -/

/-- A mark was spelled with the form behind it. -/
theorem parses_marked {mark : Mark} {opening : List Char} (hmark : mark.opening? = some opening)
    (hc : p.Takes opening q) (heval : mark = .eval → setting.host.evaluation = .enabled)
    (hunquote : mark = .unquote → ∃ c, q.ahead.head? = some c ∧ c ≠ '@') :
    Parses F q (marked below setting mark) (Step.IsSpelled setting F p) := by
  refine .bind (parses_nested hbelow) ?_
  rintro f r ⟨G, rfl, h⟩
  exact .pure (.inl (.marked hmark hc heval hunquote h))

theorem parses_list (hc : p.Takes ['('] q) :
    Parses F q (list below setting) (Step.IsSpelled setting F p) := by
  refine .bind .position ?_
  rintro position _ ⟨rfl, rfl⟩
  refine .bind (parses_sequence hbelow ')') ?_
  rintro es t ⟨G, r, rfl, hall, hclose⟩
  exact .pure (.inl (.list hc hall hclose))

theorem parses_vector (hc : p.Takes ['['] q) :
    Parses F q (do return .form (.vector (← sequence below setting ']')))
      (Step.IsSpelled setting F p) := by
  refine .bind (parses_sequence hbelow ']') ?_
  rintro es t ⟨G, r, rfl, hall, hclose⟩
  exact .pure (.inl (.group rfl hc hall hclose nofun))

theorem parses_set (hc : p.Takes ['#', '\x7b'] q) :
    Parses F q (do return .form (.set (← sequence below setting '\x7d')))
      (Step.IsSpelled setting F p) := by
  refine .bind (parses_sequence hbelow '\x7d') ?_
  rintro es t ⟨G, r, rfl, hall, hclose⟩
  exact .pure (.inl (.group rfl hc hall hclose nofun))

theorem parses_map (hc : p.Takes ['\x7b'] q) :
    Parses F q (map below setting) (Step.IsSpelled setting F p) := by
  refine .bind (parses_sequence hbelow '\x7d') ?_
  rintro es t ⟨G, r, rfl, hall, hclose⟩
  refine .ite (fun _ => .throw _) fun hodd => .pure (.inl (.group rfl hc hall hclose fun _ => ?_))
  simpa using hodd

/-- An annotated form was spelled with its note and its object. -/
theorem parses_annotated (hc : p.Takes ['^'] q ∨ p.Takes ['#', '^'] q) :
    Parses F q (annotated below setting) (Step.IsSpelled setting F p) := by
  refine .bind .position ?_
  rintro position _ ⟨rfl, rfl⟩
  refine .bind (parses_nested hbelow) ?_
  rintro note r ⟨G, rfl, hnote⟩
  rcases hkind : noteKind? note with - | kind
  · exact .throw _
  refine .bind (parses_nested hbelow) ?_
  rintro object t ⟨H, hH, hobject⟩
  obtain rfl := Frame.up_injective hH
  refine .ite (fun hannotatable => .pure (.inl ?_)) fun _ => .throw _
  exact .annotated hc hnote hkind hobject hannotatable

omit hbelow in
/-- Taking the symbols that were registered takes nothing from the text. -/
theorem parses_takeGensyms (f : Form) : Parses F p (takeGensyms f) fun _ q => q = p := by
  intro s hs hp
  rw [takeGensyms]
  split <;> exact ⟨hs, p, hp, rfl, rfl⟩

/-- A backquoted form was spelled with the form behind the backquote. -/
theorem parses_backquoted (hc : p.Takes ['\x60'] q) :
    Parses F q (backquoted below setting) (Step.IsSpelled setting F p) := by
  refine .within_backquote (.bind (parses_nested hbelow) ?_)
  rintro f r ⟨G, rfl, h⟩
  refine .bind (parses_takeGensyms f) ?_
  rintro gensyms _ rfl
  refine .bind .ofExcept ?_
  rintro g _ ⟨rfl, hread⟩
  exact .pure (.inl (.backquoted hc h hread))

/-- An unquote was spelled by one of its two marks, by what the next character is. -/
theorem parses_unquoted (hc : p.Takes ['~'] q) :
    Parses F q (unquoted below setting) (Step.IsSpelled setting F p) := by
  refine .nextCharacter_bind fun c => ?_
  by_cases hat : c = '@'
  · subst hat
    exact .past fun r hr => parses_marked hbelow rfl (hc.trans hr) nofun nofun
  · have hne : (c == '@') = false := by simpa using hat
    simp only [hne]
    exact .unread_bind fun hhead => parses_marked hbelow rfl hc nofun fun _ => ⟨c, hhead, hat⟩

omit hbelow in
/-- Blanks are passed up to a character. -/
theorem parses_nextNonBlank :
    Parses F p nextNonBlank fun c q => ∃ r, p.Blanks r ∧ r.Takes [c] q := by
  refine .bind .scan_nextForm fun c q h => ?_
  rcases c with - | c
  · exact .throw _
  · exact .pure h.2

omit hbelow in
/-- What stands between the question mark of a conditional and its elements. -/
theorem parses_conditionalOpening :
    Parses F p conditionalOpening fun opening q => opening.1 = '(' →
      OpensConditional opening.2 p q := by
  refine .nextCharacter_bind fun c => .past fun q hq => ?_
  refine .ite (fun hat => ?_) fun hat => .ite (fun hblank => ?_) fun hblank => ?_
  · obtain rfl : c = '@' := by simpa using hat
    refine .bind parses_nextNonBlank ?_
    rintro d t ⟨r, hblanks, hd⟩
    refine .pure fun hopen => ⟨q, r, hq, hblanks, ?_⟩
    exact hopen ▸ hd
  · refine .bind parses_nextNonBlank ?_
    rintro d t ⟨r, hblanks, hd⟩
    refine .pure fun hopen => ⟨p, r, .refl p, hblanks.cons hblank hq, ?_⟩
    exact hopen ▸ hd
  · refine .pure fun hopen => ⟨p, p, .refl p, .refl p, ?_⟩
    exact hopen ▸ hq

/-- A conditional was spelled with its opening, its elements and its parenthesis. -/
theorem parses_conditional (hc : p.Takes ['#', '?'] q) :
    Parses F q (conditional below setting) (Step.IsSpelled setting F p) := by
  refine .ite (fun _ => .throw _) fun hmode => .bind parses_conditionalOpening ?_
  rintro ⟨c, splicing⟩ r hopening
  refine .ite (fun _ => .throw _) fun hopen => .bind .position ?_
  have hopen : c = '(' := by simpa using hopen
  rintro position _ ⟨rfl, rfl⟩
  refine .within_conditional (.bind (parses_sequence hbelow ')') ?_)
  rintro es u ⟨G, t, hG, hall, hclose⟩
  obtain ⟨H, rfl, rfl⟩ := Frame.exists_of_up_eq_conditional hG
  rcases hfault : conditionalFault? splicing es with - | fault
  · refine .pure (.inl ?_)
    exact .conditional hmode hc (hopening hopen) hall hclose hfault
  · exact .throw _

/-- A tagged form was spelled with its tag and the form behind it. -/
theorem parses_tagged {c : Char} (hc : p.Takes ['#'] q) (hahead : q.ahead.head? = some c)
    (htrigger : HashTrigger.ofChar? c = none) :
    Parses F q (tagged below setting) (Step.IsSpelled setting F p) := by
  refine .bind (parses_nested hbelow) ?_
  rintro tag r ⟨G, rfl, htag⟩
  cases tag with
  | symbol tag =>
    refine .bind (parses_nested hbelow) ?_
    rintro f t ⟨H, hH, hf⟩
    obtain rfl := Frame.up_injective hH
    refine .bind .scopes ?_
    rintro scopes _ ⟨rfl, hconditional, -⟩
    refine .bind .ofExcept ?_
    rintro g _ ⟨rfl, hread⟩
    rw [hconditional] at hread
    exact .pure (.inl (.tagged hc hahead htrigger htag hf hread))
  | _ => exact .throw _

/-- A function literal, whose parenthesis is that of its list. -/
theorem parsesAfter_function (hc : p.Takes ['#'] q) :
    ParsesAfter '(' F q (function below setting) (Step.IsSpelled setting F p) := by
  intro s r hr hs hstands hheld
  rw [function_apply]
  split
  · exact ⟨r, hstands, hr.text_eq⟩
  · rename_i hfunction
    have hF : F.inFunction = false := by
      rw [← (State.frame_eq_iff.1 hs).1]
      simpa using hfunction
    -- the parenthesis is handed back, and belongs to the list that is read next
    have hbody : ParsesAfter '(' F q (functionBody below setting) fun f t =>
        ∃ G : Frame, G.up = { F with inFunction := true } ∧
          q.ahead.head? = some '(' ∧ SpellsNext setting true G q f t := by
      refine .within_function hF (.unread_bind fun hhead => ?_)
      refine (parses_nested hbelow).mono ?_
      rintro f t ⟨G, hG, h⟩
      exact ⟨G, hG, hhead, h⟩
    refine (hbody.bind fun f t h => .pure (.inl ?_)) s r hr hs hstands hheld
    obtain ⟨G, hG, hhead, h⟩ := h
    obtain ⟨H, rfl, rfl⟩ := Frame.exists_of_up_eq_function hG
    exact .function hc hhead hF h

/-! ### Dispatch -/

/-- **Behind a hash sign** every construct was spelled by the rule for its character. -/
theorem parsesAfter_startHash {c : Char} {trigger : HashTrigger} (hc : p.Takes ['#'] q)
    (htrigger : HashTrigger.ofChar? c = some trigger) :
    ParsesAfter c F q (startHash below setting trigger) (Step.IsSpelled setting F p) := by
  obtain rfl := HashTrigger.char_eq htrigger
  cases trigger with
  | note => exact .past fun r hr => parses_annotated hbelow (.inr (hc.trans hr))
  | var => exact .past fun r hr => parses_marked hbelow rfl (hc.trans hr) nofun nofun
  | pattern => exact .past fun r hr => parses_pattern (hc.trans hr)
  | function => exact parsesAfter_function hbelow hc
  | set => exact .past fun r hr => parses_set hbelow (hc.trans hr)
  | eval =>
    refine .past fun r hr => .ite (fun heval => ?_) fun _ => .throw _
    exact parses_marked hbelow rfl (hc.trans hr) (fun _ => heval) nofun
  | shebang =>
    refine .past fun r hr => .bind (.scan Scan.keeps_line) fun text t h => .pure ?_
    have hcomment : SpellsTrivia setting true F p (.comment .shebang text) t :=
      .comment (hc.trans hr) h
    exact isSpelled_trivia hcomment
  | unreadable => exact .past fun r hr => .throw _
  | discard =>
    refine .past fun r hr => .bind (parses_nested hbelow) ?_
    rintro f t ⟨G, rfl, h⟩
    exact .pure (isSpelled_trivia (.discard (hc.trans hr) h))
  | conditional => exact .past fun r hr => parses_conditional hbelow (hc.trans hr)
  | symbolic => exact .past fun r hr => parses_symbolic (hc.trans hr)

theorem parses_hash (hc : p.Takes ['#'] q) :
    Parses F q (hash below setting) (Step.IsSpelled setting F p) := by
  refine .nextCharacter_bind fun c => ?_
  rcases htrigger : HashTrigger.ofChar? c with - | trigger
  · exact .unread_bind fun hhead => parses_tagged hbelow hc hhead htrigger
  · exact parsesAfter_startHash hbelow hc htrigger

/-- Behind a trigger every construct was spelled by the rule for it. -/
theorem parses_startTrigger {c : Char} {trigger : Trigger} (hc : p.Takes [c] q)
    (htrigger : Trigger.ofChar? c = some trigger) :
    Parses F q (startTrigger below setting c trigger) (Step.IsSpelled setting F p) := by
  -- three closing delimiters share a trigger, which is always refused
  by_cases hunmatched : trigger = .unmatched
  · subst hunmatched
    exact .throw _
  obtain rfl := Trigger.char_eq htrigger hunmatched
  cases trigger with
  | string => exact .bind (.scan Scan.keeps_string) fun text r h => .pure (.inl (.string hc h))
  | comment =>
    refine .bind (.scan Scan.keeps_line) fun text r h => .pure ?_
    have hcomment : SpellsTrivia setting true F p (.comment .line text) r := .comment hc h
    exact isSpelled_trivia hcomment
  | comma => exact .pure (isSpelled_trivia (.comma hc))
  | quote => exact parses_marked hbelow rfl hc nofun nofun
  | deref => exact parses_marked hbelow rfl hc nofun nofun
  | note => exact parses_annotated hbelow (.inl hc)
  | backquote => exact parses_backquoted hbelow hc
  | unquote => exact parses_unquoted hbelow hc
  | list => exact parses_list hbelow hc
  | vector => exact parses_vector hbelow hc
  | map => exact parses_map hbelow hc
  | unmatched => exact absurd rfl hunmatched
  | character =>
    exact .bind (.scan Scan.keeps_charLiteral) fun literal r h => .pure (.inl (.charLiteral hc h))
  | arg => exact parses_arg hc
  | hash => exact parses_hash hbelow hc

/-- **One step of a level is sound**: what it gives was spelled from its first character on. -/
theorem parses_start {c : Char} (hc : p.Takes [c] q) (hblank : Text.isBlank c = false) :
    Parses F q (start below setting c) (Step.IsSpelled setting F p) := by
  refine .ite (fun hdigit => parses_number hc ?_) fun hdigit => ?_
  · simp [beginsNumber, hdigit]
  rcases htrigger : Trigger.ofChar? c with - | trigger
  · have hplain : isTrigger c = false := by simp [isTrigger, htrigger]
    have hdigit : Text.isDigit c = false := by simpa using hdigit
    refine .ite (fun hsign => ?_) fun hsign => ?_
    · exact parses_signed hc hdigit hplain hblank hsign
    · refine parses_token hc hplain hblank ?_
      have hsign : isSign c = false := by simpa [isSign] using hsign
      simp [beginsNumber, hdigit, hsign]
  · exact parses_startTrigger hbelow hc htrigger

/-! ### Levels -/

/-- A level skips blanks and trivia that were spelled, up to a form, its closer, or the end. -/
theorem parses_read (closer : Option Char) :
    Parses F p (read below setting closer : Read Outcome)
      (Outcome.IsSpelled setting closer F p) := by
  intro s hs hp
  have hblank := (Parses.scan_nextForm (F := F) (p := p)) s hs hp
  -- behind trivia that is skipped the level goes on, and `ih` is about what it finds then
  fun_induction read below setting closer s generalizing p with
  | case1 s e s₁ hc => exact hblank.of_error hc
  | case2 s s₁ hc =>
    obtain ⟨hs₁, q, hq, htext, hblanks, hnil⟩ := hblank.of_ok hc
    exact ⟨hs₁, q, hq, htext, .nil hblanks, hnil⟩
  | case3 s c s₁ hc hcloser =>
    obtain ⟨hs₁, q, hq, htext, -, r, hblanks, htakes⟩ := hblank.of_ok hc
    exact ⟨hs₁, q, hq, htext, c, r, (eq_of_beq hcloser).symm, .nil hblanks, htakes⟩
  | case4 s c s₁ hc hcloser e s₂ hf =>
    obtain ⟨hs₁, q, hq, htext, hc, r, -, htakes⟩ := hblank.of_ok hc
    have hstart := parses_start hbelow htakes hc s₁ hs₁ hq
    exact (hstart.of_text_eq htext).of_error hf
  | case5 s c s₁ hc hcloser f s₂ hf =>
    obtain ⟨hs₁, q, hq, htext, hc, r, hblanks, htakes⟩ := hblank.of_ok hc
    have hstart := (parses_start hbelow htakes hc s₁ hs₁ hq).of_text_eq htext
    obtain ⟨hs₂, t, ht, htext, hform | ⟨hmode, htrivia⟩⟩ := hstart.of_ok hf
    · exact ⟨hs₂, t, ht, htext, SpellsNext.form hblanks hform⟩
    · exact ⟨hs₂, t, ht, htext, SpellsNext.kept rfl hmode hblanks htrivia⟩
  | case6 s c s₁ hc hcloser s₂ hf ih =>
    obtain ⟨hs₁, q, hq, htext, hc, r, hblanks, htakes⟩ := hblank.of_ok hc
    have hstart := (parses_start hbelow htakes hc s₁ hs₁ hq).of_text_eq htext
    obtain ⟨hs₂, t, ht, htext, hmode, f, htrivia⟩ := hstart.of_ok hf
    have hrest := (ih hs₂ ht (Parses.scan_nextForm s₂ hs₂ ht)).of_text_eq htext
    exact hrest.mono fun out u hout => hout.skipped hmode hblanks htrivia

end

end Level

/-- Whatever levels read, however many, is spelled. -/
theorem FormReader.isSound_nesting (setting : Setting) (n : Nat) :
    FormReader.IsSound setting (.nesting n) := by
  induction n with
  | zero => exact fun _ _ p _ _ hp => ⟨p, hp, rfl⟩
  | succ n ih => exact fun closer _ _ => Level.parses_read ih closer

end FormTree
