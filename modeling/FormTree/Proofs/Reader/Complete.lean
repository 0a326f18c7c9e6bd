import FormTree.Proofs.Reader.Standing

/-!
# What is spelled is read

Where the text spells a form, a level that stands there with the default host and enough budget
reads one with the same core and stands after it. So the grammar says not only what reading gives,
but also that reading gives it.
-/

namespace FormTree

open Cursor Read

/-- A form that carries no metadata stays as it is written after a backquote, unless it is a
literal. -/
theorem Level.backquote_eq_ok_iff {f g : Form} {gensyms : List (Symbol × Symbol)} (h : f.IsPlain) :
    Level.backquote f gensyms = .ok g ↔
      f.isSplicing = false ∧ g = if f.isLiteral then f else .backquoted f gensyms := by
  unfold Level.backquote
  split
  · simp [Form.isSplicing]
  -- a list, which is looked at once more for its metadata, and has none here
  · rename_i info es
    dsimp only
    rw [if_pos (h info es rfl)]
    constructor
    · rintro ⟨⟩
      exact ⟨rfl, rfl⟩
    · rintro ⟨-, rfl⟩
      rfl
  · rename_i hsplicing hlist
    have hfalse : f.isSplicing = false := by
      cases f with
      | marked mark f =>
        cases mark with
        | unquoteSplicing => exact absurd rfl (hsplicing f)
        | _ => rfl
      | _ => rfl
    constructor
    · rintro ⟨⟩
      exact ⟨hfalse, rfl⟩
    · rintro ⟨-, rfl⟩
      rfl

/-- Legal lists have no metadata but a position. -/
theorem Legal.isPlain {regex : RegexEngine} {options : Options} {F : Frame} {f : Form}
    (h : Legal regex options F f) :
    f.IsPlain := by
  rintro info es rfl
  cases h with
  | list hinfo _ => exact hinfo

variable {regex : RegexEngine} {options : Options} {F : Frame} {p q r t : Spot}
  {f g : Form} {es : List Form}

/-! ### Plain lists -/

/-- What a backquote makes of a form has no list in front with metadata of its own. -/
theorem isPlain_of_backquote {gensyms : List (Symbol × Symbol)}
    (h : Level.backquote f gensyms = .ok g) : g.IsPlain := by
  unfold Level.backquote at h
  split at h
  · cases h
  · cases h
    split
    · exact Form.isPlain_of_isList rfl
    · rintro _ _ ⟨⟩
      rfl
  · cases h
    split
    · rename_i hlist _
      exact fun info es hf => absurd hf (hlist info es)
    · exact Form.isPlain_of_isList rfl

/-- With the default host all lists that are spelled are plain. -/
theorem Spells.isPlain {loose : Bool} (h : Spells (.standard regex options) loose F p f q) :
    f.IsPlain := by
  cases h with
  | token _ _ _ hread =>
    refine Form.isPlain_of_isList ?_
    rcases atom_of_interpret hread with rfl | ⟨b, rfl⟩ | ⟨s, rfl⟩ | ⟨k, rfl⟩ <;> rfl
  | pattern _ _ hread =>
    obtain rfl := Host.eq_pattern_of_compilePattern hread
    exact Form.isPlain_of_isList rfl
  | backquoted _ _ hread => exact isPlain_of_backquote hread
  | tagged _ _ _ _ _ hread =>
    obtain ⟨rfl, -⟩ := Level.interpretTagged_eq_ok hread
    exact Form.isPlain_of_isList rfl
  | list _ _ _ =>
    rintro _ _ ⟨⟩
    split
    · rfl
    · exact Metadata.isEmpty_withoutPosition_at? _
  | _ => exact Form.isPlain_of_isList rfl

/-- What is spelled as trivia is trivia. -/
theorem SpellsTrivia.isTrivia {setting : Setting} {loose : Bool}
    (h : SpellsTrivia setting loose F p f q) : f.isTrivia = true := by
  cases h <;> rfl

theorem SpellsNext.isPlain {loose : Bool} : ∀ {p : Spot},
    SpellsNext (.standard regex options) loose F p f q → f.IsPlain
  | _, .form _ h => h.isPlain
  | _, .kept _ _ _ h => by
    rintro info es rfl
    cases h.isTrivia
  | _, .skipped _ _ _ _ h => h.isPlain

/-- With the default host what is spelled as a form is no trivia. -/
theorem Spells.isTrivia_eq_false {loose : Bool}
    (h : Spells (.standard regex options) loose F p f q) :
    f.isTrivia = false := by
  cases h with
  | token _ _ _ hread =>
    rcases atom_of_interpret hread with rfl | ⟨b, rfl⟩ | ⟨s, rfl⟩ | ⟨k, rfl⟩ <;> rfl
  | pattern _ _ hread =>
    obtain rfl := Host.eq_pattern_of_compilePattern hread
    rfl
  | @marked _ _ _ _ mark _ _ hmark _ _ _ _ => cases mark <;> first | rfl | cases hmark
  | backquoted _ h hread =>
    obtain ⟨-, rfl⟩ := (Level.backquote_eq_ok_iff h.isPlain).1 hread
    rename_i e _ _
    cases e <;> rfl
  | tagged _ _ _ _ _ hread =>
    obtain ⟨rfl, -⟩ := Level.interpretTagged_eq_ok hread
    rfl
  | _ => rfl

/-! ### Loops -/

/-- No level is waiting for a character that opens a form. -/
theorem awaits_of_opens {closer : Option Char} {c : Char} (hcloser : Level.Awaits closer)
    (hopens : opens c = true) : ¬ (some c == closer) = true := by
  intro heq
  rw [hcloser c (eq_of_beq heq).symm] at hopens
  cases hopens

/-- A level goes on with what a step gives. -/
theorem ReadsAs.triple_run {give : Form → Step} {closer : Option Char}
    {Q : Outcome → State → Prop} (hblanks : p.Blanks q) (h : ReadsAs give regex options F q f r)
    (hcloser : Level.Awaits closer)
    (hrest : ∀ g, g.core = f.core → Triple true (State.StandsAt · F r)
      (match give g with
        | .form f => pure (.form f)
        | .skip => (FormReader.nesting (F.remaining + 1)).run (.standard regex options) closer) Q) :
    Triple true (State.StandsAt · F p)
      ((FormReader.nesting (F.remaining + 1)).run (.standard regex options) closer) Q := by
  obtain ⟨c, u, hc, hopens, hstart⟩ := h
  have hread : (FormReader.nesting (F.remaining + 1)).run (.standard regex options) closer =
      (Level.read (.nesting F.remaining) (.standard regex options) closer : Read Outcome) := rfl
  rw [hread] at hrest ⊢
  rw [Level.read_eq]
  refine .bind_eq (hblanks.triple_nextForm hc (isBlank_of_opens hopens)) ?_
  refine .ite_false (awaits_of_opens hcloser hopens) (hstart.bind fun step => ?_)
  rintro s ⟨g, rfl, hcore, hs⟩
  have hrest := hrest g hcore s hs
  -- the level has found a form, or reads on behind what it skips
  cases hg : give g with
  | form f =>
    rw [hg] at hrest
    exact hrest
  | skip =>
    rw [hg] at hrest
    exact hrest

/-- A form behind blanks is found. -/
theorem readsNext_form (hblanks : p.Blanks q) (h : ReadsForm regex options F q f r) :
    ReadsNext regex options F p f r :=
  fun _ hcloser => h.triple_run hblanks hcloser fun g hcore => .pure fun _ hs => ⟨g, rfl, hcore, hs⟩

/-- Trivia behind blanks is found where it is kept. -/
theorem readsNext_kept (hmode : options.trivia = .keep) (hblanks : p.Blanks q)
    (h : ReadsTrivia regex options F q f r) : ReadsNext regex options F p f r := by
  intro closer hcloser
  refine h.triple_run hblanks hcloser fun g hcore => ?_
  rw [Level.trivia, hmode]
  exact .pure fun _ hs => ⟨g, rfl, hcore, hs⟩

/-- Skipped trivia may stand before what is found. -/
theorem ReadsNext.skipped (hmode : options.trivia = .skip) (hblanks : p.Blanks q)
    (hf : ReadsTrivia regex options F q f r) (h : ReadsNext regex options F r g t) :
    ReadsNext regex options F p g t := by
  intro closer hcloser
  refine hf.triple_run hblanks hcloser fun _ _ => ?_
  rw [Level.trivia, hmode]
  exact h closer hcloser

/-- Behind blanks a level finds what it is waiting for. -/
theorem readsEnd_nil (hblanks : p.Blanks q) : ReadsEnd regex options F p q := by
  refine ⟨fun close t hclose ht => ?_, fun hnil => ?_⟩
  · have hread :
        (FormReader.nesting (F.remaining + 1)).run (.standard regex options) (some close) =
          (Level.read (.nesting F.remaining) (.standard regex options) (some close) :
            Read Outcome) := rfl
    rw [hread, Level.read_eq]
    refine .bind_eq (hblanks.triple_nextForm ht hclose.isBlank_eq_false) ?_
    exact .ite_true (beq_self_eq_true _) (.pure fun s hs => ⟨rfl, hs.1⟩)
  · have hread : (FormReader.nesting (F.remaining + 1)).run (.standard regex options) none =
        (Level.read (.nesting F.remaining) (.standard regex options) none : Read Outcome) := rfl
    rw [hread, Level.read_eq]
    exact .bind_eq (hblanks.triple_nextForm_nil hnil) (.pure fun s hs => ⟨rfl, hs⟩)

theorem ReadsEnd.skipped (hmode : options.trivia = .skip) (hblanks : p.Blanks q)
    (hf : ReadsTrivia regex options F q f r) (h : ReadsEnd regex options F r t) :
    ReadsEnd regex options F p t := by
  refine ⟨fun close u hclose hu => ?_, fun hnil => ?_⟩
  · refine hf.triple_run hblanks hclose.awaits fun _ _ => ?_
    rw [Level.trivia, hmode]
    exact h.1 close u hclose hu
  · refine hf.triple_run hblanks Level.awaits_none fun _ _ => ?_
    rw [Level.trivia, hmode]
    exact h.2 hnil

theorem ReadsAll.skipped (hmode : options.trivia = .skip) (hblanks : p.Blanks q)
    (hf : ReadsTrivia regex options F q f r) (h : ReadsAll regex options F r es t) :
    ReadsAll regex options F p es t := by
  cases es with
  | nil => exact ReadsEnd.skipped hmode hblanks hf h
  | cons g es =>
    obtain ⟨u, hg, hes⟩ := h
    exact ⟨u, hg.skipped hmode hblanks hf, hes⟩

/-! ### Parts -/

/-- A form one level further down. -/
theorem ReadsNext.triple_run (h : ReadsNext regex options F p f r) :
    Triple true (State.StandsAt · F p)
      (do
        match ← (FormReader.nesting (F.remaining + 1)).run (.standard regex options) none with
        | .form f => return f
        | _ => throw .endOfInput : Read Form)
      fun g s => g.core = f.core ∧ s.StandsAt F r := by
  refine (h none Level.awaits_none).bind fun out => ?_
  rintro s ⟨g, rfl, hcore, hs⟩
  exact ⟨hcore, hs⟩

/-- What is found next is found one level further down as well. -/
theorem ReadsNext.triple_nested (h : ReadsNext regex options F p f r) :
    Triple true (State.StandsAt · F.up p)
      (Level.nested (.nesting (F.remaining + 1)) (.standard regex options)) fun g s =>
        g.core = f.core ∧ s.StandsAt F.up r := by
  refine triple_descend h.triple_run (fun s hs => ?_) fun g s hg => ?_
  · exact ⟨State.ne_zero_of_frame_up hs.1, State.frame_down hs.1, hs.2⟩
  · exact ⟨hg.1, State.frame_up hg.2.1, hg.2.2⟩

/-- **Sequences are complete.** Forms that are found one after the other, and a closing delimiter
behind them, are collected. -/
theorem ReadsAll.triple_collect (line : Option Nat) {close : Char} (hclose : Level.IsCloser close)
    (ht : r.Takes [close] t) (h : ReadsAll regex options F p es r) :
    Triple true (State.StandsAt · F p)
      (Level.collect (.nesting (F.remaining + 1)) (.standard regex options) line close :
        Read (List Form))
      fun gs s => Form.coreAll gs = Form.coreAll es ∧ s.StandsAt F t := by
  induction es generalizing p with
  | nil =>
    rw [Level.collect_eq]
    exact .bind_eq (h.1 close t hclose ht) (.pure fun s hs => ⟨rfl, hs⟩)
  | cons f es ih =>
    obtain ⟨q, hf, hes⟩ := h
    rw [Level.collect_eq]
    refine (hf (some close) hclose.awaits).bind fun out => ?_
    rintro s ⟨g, rfl, hcore, hs⟩
    exact (ih hes).map (fun gs s hgs => ⟨congrArg₂ List.cons hcore hgs.1, hgs.2⟩) s hs

/-- The elements of a sequence, one level further down. -/
theorem ReadsAll.triple_sequence {close : Char} (hclose : Level.IsCloser close)
    (ht : r.Takes [close] t) (h : ReadsAll regex options F p es r) :
    Triple true (State.StandsAt · F.up p)
      (Level.sequence (.nesting (F.remaining + 1)) (.standard regex options) close) fun gs s =>
        Form.coreAll gs = Form.coreAll es ∧ s.StandsAt F.up t := by
  refine .bind triple_position fun position => ?_
  refine triple_descend (h.triple_collect _ hclose ht) (fun s hs => ?_) fun gs s hgs => ?_
  · exact ⟨State.ne_zero_of_frame_up hs.1, State.frame_down hs.1, hs.2⟩
  · exact ⟨hgs.1, State.frame_up hgs.2.1, hgs.2.2⟩

/-! ### Constructs -/

theorem triple_takeGensyms_of_standsAt (g : Form) :
    Triple true (State.StandsAt · F q) (Level.takeGensyms g) fun _ s => s.StandsAt F q := by
  intro s hs
  rw [Level.takeGensyms]
  split
  · exact hs
  · exact hs.reframe rfl id

section

variable (h : ReadsNext regex options F q f r)
include h

/-- A form behind a mark is read with the mark. -/
theorem ReadsNext.triple_marked (mark : Mark) :
    Triple true (State.StandsAt · F.up q)
      (Level.marked (.nesting (F.remaining + 1)) (.standard regex options) mark)
      (Step.HasCore .form (.marked mark f) F.up r) :=
  h.triple_nested.bind fun _ => .of_and fun hcore =>
    hasCore_pure (congrArg (Form.marked mark) hcore) fun _ hs => hs

/-- A mark before a form that is found is read as that form with the mark. -/
theorem readsForm_marked {mark : Mark} {opening : List Char}
    (hmark : mark.opening? = some opening) (hc : p.Takes opening q)
    (hunquote : mark = .unquote → ∃ c, q.ahead.head? = some c ∧ c ≠ '@') :
    ReadsForm regex options F.up p (.marked mark f) r := by
  have hmarked := h.triple_marked mark
  cases mark with
  | quote =>
    cases hmark
    exact readsAs_of_start hc (by decide) hmarked
  | deref =>
    cases hmark
    exact readsAs_of_start hc (by decide) hmarked
  | unquote =>
    cases hmark
    refine readsAs_of_start hc (by decide) ?_
    have hstart : Level.start (.nesting F.up.remaining) (.standard regex options) '~' =
        Level.unquoted (.nesting (F.remaining + 1)) (.standard regex options) := rfl
    rw [hstart]
    -- the next character is no at sign, and is handed back
    obtain ⟨c, hhead, hat⟩ := hunquote rfl
    obtain ⟨t, hd⟩ := Spot.exists_takes_of_head? hhead
    refine .bind_eq hd.triple_nextCharacter (.ite_false (by simpa using hat) ?_)
    exact .bind hd.triple_unread fun _ => hmarked
  | unquoteSplicing =>
    cases hmark
    obtain ⟨m, hm, hmc⟩ := hc.exists_of_cons
    refine readsAs_of_start hm (by decide) ?_
    have hstart : Level.start (.nesting F.up.remaining) (.standard regex options) '~' =
        Level.unquoted (.nesting (F.remaining + 1)) (.standard regex options) := rfl
    rw [hstart]
    exact .bind_eq hmc.triple_nextCharacter (.ite_true rfl (hmarked.pre fun _ hs => hs.1))
  | eval =>
    cases hmark
    exact readsAs_of_startHash hc rfl (hmarked.pre fun _ hs => hs.1)
  | var =>
    cases hmark
    exact readsAs_of_startHash hc rfl (hmarked.pre fun _ hs => hs.1)
  | function => cases hmark
  | discard => cases hmark

theorem readsTrivia_discard (hc : p.Takes ['#', '_'] q) :
    ReadsTrivia regex options F.up p (.marked .discard f) r := by
  have hdiscard : Triple true (State.StandsAt · F.up q)
      (Level.nested (.nesting (F.remaining + 1)) (.standard regex options) >>= fun f =>
        pure (Level.trivia (.standard regex options) (.marked .discard f)))
      (Step.HasCore (Level.trivia (.standard regex options)) (.marked .discard f) F.up r) :=
    h.triple_nested.bind fun _ => .of_and fun hcore =>
      hasCore_pure (congrArg (Form.marked .discard) hcore) fun _ hs => hs
  exact readsAs_of_startHash hc rfl (hdiscard.pre fun _ hs => hs.1)

/-- A note and an object that are found are read as an annotated form. -/
theorem readsForm_annotated {kind : NoteKind} {object : Form} {position : Option Position}
    (hc : p.Takes ['^'] q ∨ p.Takes ['#', '^'] q) (hkind : Level.noteKind? f = some kind)
    (hobject : ReadsNext regex options F r object t) (hannotatable : object.isAnnotatable = true) :
    ReadsForm regex options F.up p (.annotated kind f object position) t := by
  have hannotated : Triple true (State.StandsAt · F.up q)
      (Level.annotated (.nesting (F.remaining + 1)) (.standard regex options))
      (Step.HasCore .form (.annotated kind f object position) F.up t) := by
    refine .bind triple_position fun position => h.triple_nested.bind fun note => ?_
    refine .of_and fun hnote => ?_
    rw [← Form.noteKind?_core, hnote, Form.noteKind?_core, hkind]
    refine hobject.triple_nested.bind fun g => .of_and fun hg => ?_
    have hannotatable : g.isAnnotatable = true := by
      rw [← Form.isAnnotatable_core, hg, Form.isAnnotatable_core, hannotatable]
    refine .ite_true hannotatable (hasCore_pure ?_ fun _ hs => hs)
    exact congrArg₂ (Form.annotated kind · · none) hnote hg
  rcases hc with hc | hc
  · exact readsAs_of_start hc (by decide) hannotated
  · exact readsAs_of_startHash hc rfl (hannotated.pre fun _ hs => hs.1)

/-- What a backquote makes of a form depends on its core, since legal lists carry no metadata. -/
theorem readsForm_backquoted {gensyms : List (Symbol × Symbol)} (hc : p.Takes ['\x60'] q)
    (hplain : f.IsPlain) (hread : Level.backquote f gensyms = .ok g) :
    ReadsForm regex options F.up p g r := by
  obtain ⟨hsplicing, rfl⟩ := (Level.backquote_eq_ok_iff hplain).1 hread
  have hnested : Triple true (State.StandsAt · F.up q)
      (Level.nested (.nesting (F.remaining + 1)) (.standard regex options))
      (Verdict true (fun e s => e.core = f.core ∧ s.StandsAt F.up r) fun _ => False) :=
    h.triple_nested
  -- a backquote looks at metadata, and legal lists have none
  have hlegal : Triple true (State.StandsAt · F.up q)
      (Level.nested (.nesting (F.remaining + 1)) (.standard regex options))
      fun e s => Level.LegalInside regex options F.up e ∧ e.core = f.core ∧ s.StandsAt F.up r :=
    hnested.verdict_yields (Level.yields_nested (FormReader.isLegal_nesting regex options _))
      fun s hs => hs.1
  refine readsAs_of_start hc (by decide) ?_
  refine triple_within (P := (State.StandsAt · F.up q)) ?_ (fun s hs => hs.reframe rfl id)
    (Q := Step.HasCore .form (if f.isLiteral then f else .backquoted f gensyms) F.up r) ?_
  · refine hlegal.bind fun e => .of_and fun hlegal => .of_and fun hcore => ?_
    refine .bind (triple_takeGensyms_of_standsAt e) fun pairs => ?_
    obtain ⟨G, -, hlegal⟩ := hlegal
    -- what is read has the core that is spelled, and that decides what a backquote does
    have hback : Level.backquote e pairs =
        .ok (if f.isLiteral then e else .backquoted e pairs) := by
      refine (Level.backquote_eq_ok_iff hlegal.isPlain).2 ⟨?_, ?_⟩
      · rw [← Form.isSplicing_core, hcore, Form.isSplicing_core, hsplicing]
      · rw [← Form.isLiteral_core f, ← hcore, Form.isLiteral_core]
    rw [hback]
    refine hasCore_pure ?_ fun _ hs => hs
    split
    · exact hcore
    · exact congrArg (Form.backquoted · []) hcore
  · rintro step s ⟨e, rfl, hcore, hs⟩
    exact ⟨e, rfl, hcore, hs.reframe rfl id⟩

end

/-- The parenthesis of a function literal is handed back for its list. -/
theorem readsForm_function (hc : p.Takes ['#'] q) (hopening : q.ahead.head? = some '(')
    (hF : F.inFunction = false) (h : ReadsNext regex options { F with inFunction := true } q f r) :
    ReadsForm regex options F.up p (.marked .function f) r := by
  obtain ⟨t, hparenthesis⟩ := Spot.exists_takes_of_head? hopening
  have hbody : Triple true (State.StandsAfter · F.up t)
      (Level.functionBody (.nesting (F.remaining + 1)) (.standard regex options)) fun g s =>
        g.core = f.core ∧ s.StandsAt F.up r := by
    refine triple_within (.bind hparenthesis.triple_unread fun _ => h.triple_nested)
      (fun s hs => ?_) fun g s hg => ?_
    · exact ⟨hs.1.reframe rfl State.frame_enter_function, hs.2⟩
    · exact ⟨hg.1, hg.2.reframe rfl (State.frame_leave_function (F := F.up) hF)⟩
  have hfunction : Triple true (State.StandsAfter · F.up t)
      (Level.function (.nesting (F.remaining + 1)) (.standard regex options))
      (Step.HasCore .form (.marked .function f) F.up r) := by
    intro s hs
    -- whether the literal is allowed is told by the scopes of the state
    have hfunction : s.scopes.inFunction = false := (State.frame_eq_iff.1 hs.1.1).1.trans hF
    rw [Level.function_apply, if_neg (by simp [hfunction])]
    refine hbody.bind (fun g => .of_and fun hcore => ?_) s hs
    exact hasCore_pure (congrArg (Form.marked .function) hcore) fun _ hs => hs
  exact readsAs_of_startHash (hc.trans hparenthesis) rfl hfunction

/-- A tag and a form that are found are read as what the host makes of them. -/
theorem readsForm_tagged {c : Char} {tag : Symbol} (hc : p.Takes ['#'] q)
    (hahead : q.ahead.head? = some c) (htrigger : HashTrigger.ofChar? c = none)
    (htag : ReadsNext regex options F q (.symbol tag) r) (h : ReadsNext regex options F r f t)
    (hread : Level.interpretTagged (.standard regex options) F.inConditional tag f = .ok g) :
    ReadsForm regex options F.up p g t := by
  obtain ⟨u, hfirst⟩ := Spot.exists_takes_of_head? hahead
  have hstart : Level.start (.nesting F.up.remaining) (.standard regex options) '#' =
      Level.hash (.nesting (F.remaining + 1)) (.standard regex options) := rfl
  have hsymbol : Triple true (State.StandsAt · F.up q)
      (Level.nested (.nesting (F.remaining + 1)) (.standard regex options))
      fun g s => g = .symbol tag ∧ s.StandsAt F.up r :=
    htag.triple_nested.mono (fun _ hs => hs) fun g s hg => by
      obtain ⟨hcore, hs⟩ := hg
      cases g <;> cases hcore
      exact ⟨rfl, hs⟩
  obtain ⟨rfl, -⟩ := Level.interpretTagged_eq_ok hread
  refine readsAs_of_start hc (by decide) ?_
  rw [hstart]
  refine .bind_eq hfirst.triple_nextCharacter ?_
  rw [htrigger]
  refine .bind hfirst.triple_unread fun _ => .bind_eq hsymbol ?_
  refine h.triple_nested.bind fun e => .of_and fun hcore => ?_
  refine .bind (triple_scopes fun s hs => hs.1) fun scopes => .of_and fun hscopes => ?_
  -- Here the form is read as `e`, which has the same core as `f` and so stays under its tag, too.
  have hkept : Level.interpretTagged (.standard regex options) F.up.inConditional tag e =
      .ok (.tagged tag e) := interpretTagged_of_core_eq hcore hread
  rw [hscopes, hkept]
  exact hasCore_pure (congrArg (Form.tagged tag) hcore) fun _ hs => hs

/-- A comment is read to the end of its line. -/
theorem readsTrivia_comment {style : CommentStyle} {text : String}
    (hc : p.Takes (match style with | .line => [';'] | .shebang => ['#', '!']) q)
    (h : Scan.Gives Scan.line q text r) :
    ReadsTrivia regex options F p (.comment style text) r := by
  have hline : Triple true (State.StandsAt · F q) (do
      return Level.trivia (.standard regex options) (.comment style (← scan Scan.line)) : Read Step)
      (Step.HasCore (Level.trivia (.standard regex options)) (.comment style text) F r) :=
    .bind_eq (h.triple_scan Scan.keeps_line Scan.blind_line) (hasCore_pure rfl fun _ hs => hs)
  cases style with
  | line => exact readsAs_of_start hc (by decide) hline
  | shebang => exact readsAs_of_startHash hc rfl (hline.pre fun _ hs => hs.1)

theorem readsTrivia_comma (hc : p.Takes [','] q) : ReadsTrivia regex options F p .comma q :=
  readsAs_of_start hc (by decide) (hasCore_pure rfl fun _ hs => hs)

/-! ### Sequences -/

section

variable (h : ReadsAll regex options F q es r)
include h

/-- Elements that are found between parentheses are read as a list. -/
theorem readsForm_list (info : Metadata Form) (hc : p.Takes ['('] q) (hclose : r.Takes [')'] t) :
    ReadsForm regex options F.up p (.list info es) t := by
  have hlist : Triple true (State.StandsAt · F.up q)
      (Level.list (.nesting (F.remaining + 1)) (.standard regex options))
      (Step.HasCore .form (.list info es) F.up t) := by
    refine .bind triple_position fun position => ?_
    refine (h.triple_sequence (.inl rfl) hclose).bind fun gs => .of_and fun hgs => ?_
    exact hasCore_pure (congrArg (Form.list .empty) hgs) fun _ hs => hs
  exact readsAs_of_start hc (by decide) hlist

/-- Elements that are found between other delimiters are read as a sequence of that kind. -/
theorem readsForm_group {group : Group} {opening : List Char} {close : Char}
    (hbrackets : group.brackets? = some (opening, close)) (hc : p.Takes opening q)
    (hclose : r.Takes [close] t) (heven : group = .map → (Form.dataOf es).length % 2 = 0) :
    ReadsForm regex options F.up p (.group group es) t := by
  cases group with
  | vector =>
    cases hbrackets
    refine readsAs_of_start hc (by decide) ?_
    refine (h.triple_sequence (.inr (.inl rfl)) hclose).bind fun gs => .of_and fun hgs => ?_
    exact hasCore_pure (congrArg (Form.group .vector) hgs) fun _ hs => hs
  | map =>
    cases hbrackets
    have hmap : Triple true (State.StandsAt · F.up q)
        (Level.map (.nesting (F.remaining + 1)) (.standard regex options))
        (Step.HasCore .form (.group .map es) F.up t) := by
      refine (h.triple_sequence (.inr (.inr rfl)) hclose).bind fun gs => .of_and fun hgs => ?_
      -- what counts as data shows in the cores
      have hlength : (Form.dataOf gs).length = (Form.dataOf es).length := by
        rw [← Form.length_coreAll, ← Form.dataOf_coreAll, hgs, Form.dataOf_coreAll,
          Form.length_coreAll]
      refine .ite_false (by simp [hlength, heven rfl]) (hasCore_pure ?_ fun _ hs => hs)
      exact congrArg (Form.group .map) hgs
    exact readsAs_of_start hc (by decide) hmap
  | set =>
    cases hbrackets
    refine readsAs_of_startHash hc rfl ?_
    refine ((h.triple_sequence (.inr (.inr rfl)) hclose).pre fun _ hs => hs.1).bind fun gs =>
      .of_and fun hgs => ?_
    exact hasCore_pure (congrArg (Form.group .set) hgs) fun _ hs => hs
  | conditional splicing position => cases hbrackets
  | file => cases hbrackets

end

/-! ### Conditionals -/

theorem Spot.Blanks.triple_nextNonBlank {c : Char} (hblanks : p.Blanks q) (hc : q.Takes [c] r)
    (hblank : Text.isBlank c = false) :
    Triple true (State.StandsAt · F p) Level.nextNonBlank fun b s => b = c ∧ s.StandsAt F r :=
  .bind_eq (hblanks.triple_nextForm hc hblank) (.pure fun _ hs => ⟨rfl, hs.1⟩)

/-- Between the question mark and the parenthesis of a conditional stand an at sign, if it splices,
and blanks. -/
theorem OpensConditional.triple_conditionalOpening {splicing : Bool}
    (h : OpensConditional splicing p q) :
    Triple true (State.StandsAt · F p) Level.conditionalOpening fun a s =>
      a = ('(', splicing) ∧ s.StandsAt F q := by
  obtain ⟨r, t, hsplicing, ⟨ws, hws, hall⟩, hopen⟩ := h
  cases splicing with
  | true =>
    have hsplicing : p.Takes ['@'] r := hsplicing
    have hblanks : r.Blanks t := ⟨ws, hws, hall⟩
    refine .bind_eq hsplicing.triple_nextCharacter (.ite_true rfl ?_)
    refine .bind_eq ((hblanks.triple_nextNonBlank hopen (by decide)).pre fun _ hs => hs.1) ?_
    exact .pure fun _ hs => ⟨rfl, hs⟩
  | false =>
    obtain rfl : r = p := hsplicing.unique (.refl p)
    -- the first character after the question mark is the parenthesis or a blank
    rcases ws with - | ⟨c, ws⟩
    · obtain rfl : t = r := hws.unique (Spot.Takes.refl _)
      refine .bind_eq hopen.triple_nextCharacter (.ite_false (by decide) ?_)
      exact .ite_false (by decide) (.pure fun _ hs => ⟨rfl, hs.1⟩)
    · obtain ⟨m, hm, hmt⟩ := hws.exists_of_cons
      rw [List.all_cons, Bool.and_eq_true] at hall
      have hblanks : m.Blanks t := ⟨ws, hmt, hall.2⟩
      have hat : ¬ (c == '@') = true := by
        intro heq
        rw [eq_of_beq heq] at hall
        cases hall.1
      refine .bind_eq hm.triple_nextCharacter (.ite_false hat (.ite_true hall.1 ?_))
      refine .bind_eq ((hblanks.triple_nextNonBlank hopen (by decide)).pre fun _ hs => hs.1) ?_
      exact .pure fun _ hs => ⟨rfl, hs⟩

/-- Elements that are found behind the opening of a conditional are read as one if they pass its
check. -/
theorem readsForm_conditional {u : Spot} {splicing : Bool} (position : Option Position)
    (hmode : options.conditionals ≠ .disabled) (hc : p.Takes ['#', '?'] q)
    (hopening : OpensConditional splicing q r)
    (h : ReadsAll regex options { F with conditionals := F.conditionals + 1 } r es t)
    (hclose : t.Takes [')'] u) (hfault : Level.conditionalFault? splicing es = none) :
    ReadsForm regex options F.up p (.group (.conditional splicing position) es) u := by
  have hbody : Triple true (State.StandsAt · F.up q)
      (Level.conditional (.nesting (F.remaining + 1)) (.standard regex options))
      (Step.HasCore .form (.group (.conditional splicing position) es) F.up u) := by
    refine .ite_false hmode (.bind_eq hopening.triple_conditionalOpening ?_)
    refine .ite_false (by decide) (.bind triple_position fun position => ?_)
    refine triple_within
      (Q := Step.HasCore .form (.group (.conditional splicing position) es)
        { F.up with conditionals := F.conditionals + 1 } u)
      ((h.triple_sequence (.inl rfl) hclose).bind fun gs => .of_and fun hgs => ?_)
      (fun s hs => hs.reframe rfl State.frame_enter_conditional) ?_
    · rw [← Form.conditionalFault?_coreAll, hgs, Form.conditionalFault?_coreAll, hfault]
      exact hasCore_pure (congrArg (Form.group (.conditional splicing none)) hgs) fun _ hs => hs
    · rintro step s ⟨g, rfl, hcore, hs⟩
      exact ⟨g, rfl, hcore, hs.reframe rfl State.frame_leave_conditional⟩
  exact readsAs_of_startHash hc rfl (hbody.pre fun _ hs => hs.1)

/-! ### Levels -/

variable {loose : Bool}

mutual

/-- **The grammar is complete.** By induction on how a text spells a form, a level reads it. -/
theorem Spells.readsForm : ∀ {F : Frame} {p q : Spot} {f : Form},
    Spells (.standard regex options) loose F p f q → ReadsForm regex options F p f q
  | _, _, _, _, .number hc hbegins h => readsForm_number hc hbegins h
  | _, _, _, _, .token hc hplain h hread => readsForm_token hc hplain h hread
  | _, _, _, _, .string hc h => readsForm_string hc h
  | _, _, _, _, .charLiteral hc h => readsForm_charLiteral hc h
  | _, _, _, _, .arg hc h href => readsForm_arg hc h href
  | _, _, _, _, .pattern hc h hread => readsForm_pattern hc h hread
  | _, _, _, _, .symbolic hc h hvalue => readsForm_symbolic hc h hvalue
  | _, _, _, _, .marked hmark hc _ hunquote h => readsForm_marked h.readsNext hmark hc hunquote
  | _, _, _, _, .function hc hopening hF h => readsForm_function hc hopening hF h.readsNext
  | _, _, _, _, .annotated hc hnote hkind hobject hannotatable =>
    readsForm_annotated hnote.readsNext hc hkind hobject.readsNext hannotatable
  | _, _, _, _, .backquoted hc h hread => readsForm_backquoted h.readsNext hc h.isPlain hread
  | _, _, _, _, .tagged hc hahead htrigger htag h hread =>
    readsForm_tagged hc hahead htrigger htag.readsNext h.readsNext hread
  | _, _, _, _, .list hc h hclose => readsForm_list h.readsAll _ hc hclose
  | _, _, _, _, .group hbrackets hc h hclose heven =>
    readsForm_group h.readsAll hbrackets hc hclose heven
  | _, _, _, _, .conditional hmode hc hopening h hclose hfault =>
    readsForm_conditional _ hmode hc hopening h.readsAll hclose hfault

theorem SpellsTrivia.readsTrivia : ∀ {F : Frame} {p q : Spot} {f : Form},
    SpellsTrivia (.standard regex options) loose F p f q → ReadsTrivia regex options F p f q
  | _, _, _, _, .comment hc h => readsTrivia_comment hc h
  | _, _, _, _, .comma hc => readsTrivia_comma hc
  | _, _, _, _, .discard hc h => readsTrivia_discard h.readsNext hc

/-- What the grammar says comes next is what a level reads next. -/
theorem SpellsNext.readsNext : ∀ {F : Frame} {p q : Spot} {f : Form},
    SpellsNext (.standard regex options) loose F p f q → ReadsNext regex options F p f q
  | _, _, _, _, .form hblanks h => readsNext_form hblanks h.readsForm
  | _, _, _, _, .kept _ hmode hblanks h => readsNext_kept hmode hblanks h.readsTrivia
  | _, _, _, _, .skipped _ hmode hblanks h hnext =>
    hnext.readsNext.skipped hmode hblanks h.readsTrivia

/-- The elements that the grammar says come next are those that levels read. -/
theorem SpellsAll.readsAll : ∀ {F : Frame} {p q : Spot} {es : List Form},
    SpellsAll (.standard regex options) loose F p es q → ReadsAll regex options F p es q
  | _, _, _, _, .nil hblanks => readsEnd_nil hblanks
  | _, _, _, _, .form hblanks h hrest => ⟨_, readsNext_form hblanks h.readsForm, hrest.readsAll⟩
  | _, _, _, _, .kept hmode hblanks h hrest =>
    ⟨_, readsNext_kept hmode hblanks h.readsTrivia, hrest.readsAll⟩
  | _, _, _, _, .skipped hmode hblanks h hrest =>
    hrest.readsAll.skipped hmode hblanks h.readsTrivia

end

end FormTree
