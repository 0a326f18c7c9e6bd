import FormTree.Proofs.Reader.Back

/-!
# Forms behind marks, notes, backquotes and tags read back

What is put in front of a form reads back if the form does. The exceptions are those of faithful
forms: the text of an unquote and that of a dereference make a splicing unquote, and some tags begin
like another construct.
-/

namespace FormTree

open Read

/-! ### Frames of scopes -/

namespace State

variable {s t : State} {F G : Frame} {cs : List Char}

/-- A state with the same cursor stands at the same text. -/
theorem At.reframe (h : s.At F cs) (hcursor : t.cursor = s.cursor)
    (hframe : s.frame = F → t.frame = G) : t.At G cs :=
  ⟨hframe h.1, hcursor ▸ h.2⟩

theorem Past.reframe (h : s.Past F cs) (hcursor : t.cursor = s.cursor)
    (hframe : s.frame = F → t.frame = G) : t.Past G cs :=
  ⟨hframe h.1, hcursor ▸ h.2⟩

/-- A state with the same cursor stands before the same text. -/
theorem Before.reframe (h : s.Before F cs) (hcursor : t.cursor = s.cursor)
    (hframe : s.frame = F → t.frame = G) : t.Before G cs := by
  obtain ⟨rest, hrest, hat⟩ := h
  exact ⟨rest, hrest, hat.reframe hcursor hframe⟩

theorem frame_of_before (h : s.Before F cs) : s.frame = F := by
  obtain ⟨_, _, hframe, _⟩ := h
  exact hframe

end State

/-- What is known of successful runs in a frame may be added to a verdict. -/
theorem Triple.verdict_yields {α : Type} {w : Bool} {F : Frame} {P : State → Prop} {m : Read α}
    {good : α → State → Prop} {bad R : α → Prop} (hm : Triple w P m (Verdict w good bad))
    (hyields : Yields F m R) (hP : ∀ s, P s → s.frame = F) :
    Triple w P m (Verdict w (fun a s => R a ∧ good a s) fun a => R a ∧ bad a) := by
  intro s hs
  have hm := hm s hs
  have hR (a : α) (t : State) : m s = .ok a t → R a := fun h => (hyields s a t (hP s hs) h).1
  rcases hms : m s with ⟨a, t⟩ | ⟨e, t⟩
  · rw [hms] at hm
    rcases w with - | -
    · exact ⟨hR a t hms, hm⟩
    · exact ⟨hR a t hms, hm⟩
  · rw [hms] at hm
    exact hm

namespace Level

variable {regex : RegexEngine} {options : Options} {F : Frame} {total : Bool} {below : FormReader}
  {cs tail : List Char} {Q : Step → State → Prop}

/-- The character after a hash sign decides what begins. -/
theorem triple_start_hash {c : Char} {trigger : HashTrigger}
    (h : HashTrigger.ofChar? c = some trigger)
    (hm : Triple total (State.Past · F cs) (startHash below (.standard regex options) trigger) Q) :
    Triple total (State.Past · F (c :: cs)) (start below (.standard regex options) '#') Q := by
  have hstart : start below (.standard regex options) '#' =
      hash below (.standard regex options) := rfl
  rw [hstart]
  refine .bind_eq ((triple_nextCharacter c).pre fun _ hs => hs.at) ?_
  rw [h]
  exact hm

section

variable {f : Form}

/-- A form after its mark. -/
theorem triple_marked (mark : Mark) (hf : ReadsBack regex options F f) (htail : f.Follows tail) :
    Triple f.isFaithful (State.At · F.up (f.chars ++ tail))
      (marked (.nesting (F.remaining + 1)) (.standard regex options) mark)
      (Step.Restores f.isFaithful (.marked mark f) F.up tail) := by
  have hnested := (triple_nested hf [] rfl htail).pre fun s hs => State.At.before hs
  refine hnested.restores (fun g s hs => ⟨congrArg (Form.marked mark) hs.1, hs.2⟩) fun g hg => ?_
  rw [Form.same, hg, Bool.and_false]

/-- After a tilde and an at sign nothing is read but a splicing unquote. -/
theorem triple_unquoted_splicing :
    Triple false (State.Past · F ('@' :: cs))
      (unquoted below (.standard regex options)) fun step _ =>
      step.Gives ((Form.marked .unquote f).same · = false) := by
  refine .bind_eq ((triple_nextCharacter '@').pre fun _ hs => hs.at) (.ite_true rfl ?_)
  refine .bind_any fun g => ?_
  exact .pure fun _ _ => rfl

end

end Level

section

variable {regex : RegexEngine} {options : Options} {F : Frame} {f : Form}

/-- A mark other than an unquote reads back if what it begins is the mark and a form. -/
theorem readsBack_marked_of {mark : Mark} {c : Char} {cs : List Char}
    (hf : ReadsBack regex options F f)
    (hmark : mark ≠ .unquote) (htext : mark.text.toList = c :: cs) (hopens : opens c = true)
    (hat : c = '@' → mark = .deref)
    (hstart : ∀ {total : Bool} {rest : List Char} {Q : Step → State → Prop},
      Triple total (State.At · F.up rest)
          (Level.marked (.nesting (F.remaining + 1)) (.standard regex options) mark) Q →
        Triple total (State.Past · F.up (cs ++ rest))
          (Level.start (.nesting (F.remaining + 1)) (.standard regex options) c) Q) :
    ReadsBack regex options F.up (.marked mark f) := by
  have hfaithful : (Form.marked mark f).isFaithful = f.isFaithful := by
    have hne : (mark == .unquote) = false := beq_eq_false_iff_ne.2 hmark
    rw [Form.isFaithful, hne]
    rfl
  refine ⟨c, cs ++ f.chars, ?_, hopens, ?_, fun tail htail => ?_⟩
  · rw [Form.chars_marked, htext]
    rfl
  · intro hc
    rw [hat hc]
    rfl
  · rw [hfaithful, List.append_assoc]
    exact hstart (Level.triple_marked mark hf htail)

/-- Before a dereference an unquote does not read back, before any other form it does. -/
theorem readsBack_unquote (hf : ReadsBack regex options F f) :
    ReadsBack regex options F.up (.marked .unquote f) := by
  have htext : Mark.unquote.text.toList = ['~'] := by decide
  refine ⟨'~', f.chars, ?_, by decide, nofun, fun tail htail => ?_⟩
  · rw [Form.chars_marked, htext]
    rfl
  · have hstart : Level.start (.nesting F.up.remaining) (.standard regex options) '~' =
        Level.unquoted (.nesting (F.remaining + 1)) (.standard regex options) := rfl
    have hmarked := Level.triple_marked .unquote hf htail
    obtain ⟨c, cs, hcs, -, hat, -⟩ := hf
    have hfaithful : (Form.marked .unquote f).isFaithful = (!f.isDeref && f.isFaithful) := rfl
    rw [hstart, hfaithful, hcs, List.cons_append]
    rw [hcs, List.cons_append] at hmarked
    by_cases hc : c = '@'
    · have hderef : f.isDeref = true := hat hc
      rw [hc, hderef]
      exact Level.triple_unquoted_splicing
    · rcases hderef : f.isDeref with - | -
      · refine .bind_eq ((triple_nextCharacter c).pre fun _ hs => hs.at)
          (.ite_false (by simpa using hc) ?_)
        exact .bind (triple_unread c) fun _ => hmarked
      · -- the text of a dereference begins with an at sign
        cases f with
        | marked mark g =>
          cases mark with
          | deref =>
            have hderef : Mark.deref.text.toList = ['@'] := by decide
            rw [Form.chars_marked, hderef] at hcs
            cases hcs
            exact absurd rfl hc
          | _ => cases hderef
        | _ => cases hderef

/-- **Marks read back**, except that of a function literal, which has a scope of its own. -/
theorem readsBack_marked {mark : Mark} (hfunction : mark ≠ .function)
    (hdiscard : mark = .discard → options.trivia = .keep) (hf : ReadsBack regex options F f) :
    ReadsBack regex options F.up (.marked mark f) := by
  cases mark with
  | quote =>
    exact readsBack_marked_of hf (by decide) (by decide : _ = ['\'']) (by decide) nofun
      fun h => h.pre fun _ hs => hs.at
  | deref =>
    exact readsBack_marked_of hf (by decide) (by decide : _ = ['@']) (by decide) (fun _ => rfl)
      fun h => h.pre fun _ hs => hs.at
  | unquote => exact readsBack_unquote hf
  -- its two characters begin as those of an unquote
  | unquoteSplicing =>
    have hstart (below : FormReader) : Level.start below (.standard regex options) '~' =
        Level.unquoted below (.standard regex options) := rfl
    refine readsBack_marked_of hf (by decide) (by decide : _ = ['~', '@']) (by decide) nofun
      fun {total rest Q} h => ?_
    rw [hstart]
    refine .bind_eq ((triple_nextCharacter '@').pre fun _ hs => hs.at) (.ite_true rfl ?_)
    exact h.pre fun _ hs => hs.at
  | eval =>
    have hstart (below : FormReader) : Level.startHash below (.standard regex options) .eval =
        Level.marked below (.standard regex options) .eval := rfl
    refine readsBack_marked_of hf (by decide) (by decide : _ = ['#', '=']) (by decide) nofun
      fun {total rest Q} h => Level.triple_start_hash (c := '=') rfl ?_
    rw [hstart]
    exact h.pre fun _ hs => hs.at
  | var =>
    exact readsBack_marked_of hf (by decide) (by decide : _ = ['#', '\'']) (by decide) nofun
      fun h => Level.triple_start_hash (c := '\'') rfl (h.pre fun _ hs => hs.at)
  | function => exact absurd rfl hfunction
  -- what is discarded is kept as trivia in this mode
  | discard =>
    have hkeep (below : FormReader) : Level.startHash below (.standard regex options) .discard =
        Level.marked below (.standard regex options) .discard := by
      simp only [Level.startHash, Level.trivia, hdiscard rfl]
      rfl
    refine readsBack_marked_of hf (by decide) (by decide : _ = ['#', '_']) (by decide) nofun
      fun {total rest Q} h => Level.triple_start_hash (c := '_') rfl ?_
    rw [hkeep]
    exact h.pre fun _ hs => hs.at

/-! ### Function literals -/

/-- The parenthesis of a function literal is that of its list. -/
theorem readsBack_function {conditionals remaining : Nat} {info : Metadata Form} {es : List Form}
    (h : ReadsBack regex options ⟨true, conditionals, remaining⟩ (.list info es)) :
    ReadsBack regex options ⟨false, conditionals, remaining + 1⟩
      (.marked .function (.list info es)) := by
  let G : Frame := ⟨true, conditionals, remaining⟩
  let E : Frame := ⟨false, conditionals, remaining + 1⟩
  have htext : Mark.function.text.toList = ['#'] := by decide
  have hchars := Form.chars_list info es
  refine ⟨'#', (Form.list info es).chars, ?_, by decide, nofun, fun tail htail => ?_⟩
  · rw [Form.chars_marked, htext]
    rfl
  · have hfaithful : (Form.marked .function (.list info es)).isFaithful =
        (Form.list info es).isFaithful := rfl
    have hnested := (Level.triple_nested h [] rfl htail).pre fun s hs => State.At.before hs
    -- the body is read inside of the scope, and the parenthesis is read again with it
    have hbody : Triple (Form.list info es).isFaithful
        (State.Past · E (Form.charsWithin none es ++ ([')'] ++ tail)))
        (Level.functionBody (.nesting (remaining + 1)) (.standard regex options))
        (Verdict (Form.list info es).isFaithful
          (fun g s => g.core = (Form.list info es).core ∧ s.Before E tail)
          ((Form.list info es).same · = false)) := by
      rw [hchars, List.nil_append, List.cons_append, List.append_assoc] at hnested
      refine triple_within (P := (State.Past · G.up (Form.charsWithin none es ++ ([')'] ++ tail))))
        (.bind (triple_unread '(') fun _ => hnested) (fun s hs => ?_) fun g s hg => ?_
      · exact hs.reframe rfl State.frame_enter_function
      · exact hg.imp fun hg => ⟨hg.1, hg.2.reframe rfl (State.frame_leave_function (F := E) rfl)⟩
    have hform : Triple (Form.list info es).isFaithful
        (State.Past · E (Form.charsWithin none es ++ ([')'] ++ tail)))
        (Level.function (.nesting (remaining + 1)) (.standard regex options))
        (Step.Restores (Form.list info es).isFaithful
          (.marked .function (.list info es)) E tail) := by
      intro s hs
      have hfunction : s.scopes.inFunction = false := (State.frame_eq_iff.1 hs.1).1
      rw [Level.function_apply, if_neg (by simp [hfunction])]
      refine hbody.restores (fun g s hs => ?_) (fun g hg => ?_) s hs
      · exact ⟨congrArg (Form.marked .function) hs.1, hs.2⟩
      · rw [Form.same, hg, Bool.and_false]
    rw [hfaithful, hchars, List.cons_append, List.append_assoc]
    exact Level.triple_start_hash rfl hform

/-! ### Annotated forms -/

/-- No note ends with a comment, so that what is annotated may follow it. -/
theorem endsWithComment_of_noteKind? {note : Form} {kind : NoteKind}
    (h : Level.noteKind? note = some kind) : note.endsWithComment = false := by
  cases note <;> first | rfl | cases h

/-- Before a form that is separated by a space stands any form but a comment. -/
theorem follows_space (hcomment : f.endsWithComment = false) (tail : List Char) :
    f.Follows (' ' :: tail) := by
  rintro c ⟨⟩
  rw [hcomment]
  decide

/-- Annotated forms differ if their notes or their objects do. -/
theorem same_annotated_eq_false {kind k : NoteKind} {note object m g : Form}
    {position p : Option Position} (h : note.same m = false ∨ object.same g = false) :
    (Form.annotated kind note object position).same (.annotated k m g p) = false := by
  rcases h with h | h
  · rw [Form.same, h, Bool.and_false, Bool.false_and]
  · rw [Form.same, h, Bool.and_false]

/-- An annotated form reads back if its note and its object do. -/
theorem readsBack_annotated {kind : NoteKind} {note object : Form} (position : Option Position)
    (hnote : ReadsBack regex options F note) (hobject : ReadsBack regex options F object)
    (hkind : Level.noteKind? note = some kind) (hannotatable : object.isAnnotatable = true) :
    ReadsBack regex options F.up (.annotated kind note object position) := by
  refine ⟨'^', note.chars ++ ' ' :: object.chars, ?_, by decide, nofun, fun tail htail => ?_⟩
  · exact Form.chars_annotated kind note object position
  · have hstart : Level.start (.nesting F.up.remaining) (.standard regex options) '^' =
        Level.annotated (.nesting (F.remaining + 1)) (.standard regex options) := rfl
    have hspace := follows_space (endsWithComment_of_noteKind? hkind) (object.chars ++ tail)
    have hfirst := Level.triple_nested hnote [] rfl hspace
    have hsecond := Level.triple_nested hobject [' '] rfl htail
    rw [hstart, List.append_assoc]
    refine .bind triple_position fun p => ?_
    refine (hfirst.pre fun s hs => hs.before).verdict (fun _ m => ?_) fun m hm => ?_
    -- the note that was read has the core of the note, and is one of the same kind
    · refine .of_and fun hcore => ?_
      have hm : Level.noteKind? m = some kind := by
        rw [← Form.noteKind?_core, hcore, Form.noteKind?_core, hkind]
      rw [hm]
      refine hsecond.verdict_bind (fun _ g => .of_and fun hg => ?_) fun g hg => ?_
      · have hannotatable : g.isAnnotatable = true := by
          rw [← Form.isAnnotatable_core, hg, Form.isAnnotatable_core, hannotatable]
        refine .ite_true hannotatable (.pure fun s hs => ⟨?_, hs⟩)
        exact congrArg₂ (Form.annotated kind · · none) hcore hg
      · refine .ite (.pure fun _ _ => ?_) .throw
        exact same_annotated_eq_false (.inr hg)
    -- another note makes another form, whatever its object
    · rcases Level.noteKind? m with - | k
      · exact .throw
      · refine .bind_any fun g => ?_
        refine .ite (.pure fun _ _ => ?_) .throw
        exact same_annotated_eq_false (.inl hm)

/-! ### Backquoted forms -/

/-- Taking the symbols that were registered changes nothing that can be read. -/
theorem triple_takeGensyms {total : Bool} {tail : List Char} (f : Form) :
    Triple total (State.Before · F tail) (Level.takeGensyms f) fun _ s => s.Before F tail := by
  intro s hs
  rw [Level.takeGensyms]
  split
  · exact hs
  · exact hs.reframe rfl id

/-- A legal form after a backquote stays as it is written unless it is a literal. -/
theorem backquote_of_legal {f : Form} (h : Legal regex options F f)
    (gensyms : List (Symbol × Symbol))
    (hliteral : f.isLiteral = false) (hsplicing : ∀ g, f ≠ .marked .unquoteSplicing g) :
    Level.backquote f gensyms = .ok (.backquoted f gensyms) := by
  unfold Level.backquote
  split
  · exact absurd rfl (hsplicing _)
  · cases h with
    | list hinfo hes =>
      dsimp only
      rw [if_pos hinfo]
  · rw [hliteral]
    rfl

/-- Backquoted forms differ if the forms behind the backquote do. -/
theorem same_backquoted_eq_false {f g h : Form} {gensyms pairs : List (Symbol × Symbol)}
    (hg : f.same g = false) (hh : Level.backquote g pairs = .ok h) :
    (Form.backquoted f gensyms).same h = false := by
  have hback : (Form.backquoted f gensyms).same (.backquoted g pairs) = false := by
    rw [Form.same, hg]
  unfold Level.backquote at hh
  split at hh
  · cases hh
  · cases hh
    split
    · exact hback
    · rfl
  · cases hh
    split
    · rename_i hliteral
      cases g <;> first | rfl | cases hliteral
    · exact hback

/-- A backquote reads back before a form that it does not stand for, which no literal is. -/
theorem readsBack_backquoted (gensyms : List (Symbol × Symbol)) (hf : ReadsBack regex options F f)
    (hliteral : f.isLiteral = false) (hsplicing : ∀ g, f ≠ .marked .unquoteSplicing g) :
    ReadsBack regex options F.up (.backquoted f gensyms) := by
  refine ⟨'\x60', f.chars, Form.chars_backquoted f gensyms, by decide, nofun, fun tail htail => ?_⟩
  have hstart : Level.start (.nesting F.up.remaining) (.standard regex options) '\x60' =
      Level.backquoted (.nesting (F.remaining + 1)) (.standard regex options) := rfl
  have hnested := (Level.triple_nested hf [] rfl htail).verdict_yields
    (Level.yields_nested (FormReader.isLegal_nesting regex options _))
    fun s hs => State.frame_of_before hs
  rw [hstart]
  refine triple_within (Q := Step.Restores f.isFaithful (.backquoted f gensyms) F.up tail)
    (hnested.verdict_bind (fun _ g => ?_) fun g hg => ?_)
    (fun s hs => hs.before.reframe rfl id) fun step s hs => hs.imp fun hs => ?_
  -- what was read has the core of the form, and that decides what the backquote does with it
  · refine .of_and fun hlegal => .of_and fun hcore => ?_
    obtain ⟨G, -, hlegal⟩ := hlegal
    have hliteral : g.isLiteral = false := by
      rw [← Form.isLiteral_core, hcore, Form.isLiteral_core, hliteral]
    have hsplicing : ∀ h, g ≠ .marked .unquoteSplicing h := by
      rintro h rfl
      cases f with
      | marked mark f =>
        obtain rfl : Mark.unquoteSplicing = mark := (Form.marked.inj hcore).1
        exact hsplicing f rfl
      | _ => cases hcore
    refine .bind (triple_takeGensyms g) fun pairs => ?_
    rw [backquote_of_legal hlegal pairs hliteral hsplicing]
    exact .pure fun s hs => ⟨congrArg (Form.backquoted · []) hcore, hs⟩
  · refine .bind_any fun pairs => ?_
    rcases hback : Level.backquote g pairs with e | h
    · exact .throw
    · exact .pure fun _ _ => same_backquoted_eq_false hg.2 hback
  · exact ⟨hs.1, hs.2.reframe rfl id⟩

/-! ### Tagged forms -/

/-- What is read after a hash sign and one of the characters after it is no tagged form. -/
theorem triple_startHash_of_tagged {below : FormReader} {tag : Symbol} {f : Form}
    (hkeep : options.trivia = .keep) (trigger : HashTrigger) :
    Triple false (fun _ => True) (Level.startHash below (.standard regex options) trigger)
      fun step _ => step.Gives ((Form.tagged tag f).same · = false) := by
  -- every construct behind one of these characters is a form of another kind than a tagged one
  have hmarked (mark : Mark) : Triple false (fun _ => True)
      (Level.marked below (.standard regex options) mark) fun step _ =>
        step.Gives ((Form.tagged tag f).same · = false) :=
    .bind_any fun _ => .pure fun _ _ => rfl
  cases trigger with
  | note =>
    refine .bind_any fun _ => .bind_any fun note => ?_
    rcases Level.noteKind? note with - | kind
    · exact .throw
    · exact .bind_any fun _ => .ite (.pure fun _ _ => rfl) .throw
  | var => exact hmarked .var
  | pattern =>
    refine .bind_any fun source => ?_
    rcases hread : (Host.standard regex).patterns source with message | g
    · exact .throw
    · obtain rfl := Host.eq_pattern_of_compilePattern hread
      exact .pure fun _ _ => rfl
  | function => exact .bind_any fun _ => .ite .throw (.bind_any fun _ => .pure fun _ _ => rfl)
  | set => exact .bind_any fun _ => .pure fun _ _ => rfl
  | eval => exact hmarked .eval
  | shebang =>
    refine .bind_any fun _ => .pure fun _ _ => ?_
    rw [Level.trivia, hkeep]
    rfl
  | unreadable => exact .throw
  | discard =>
    refine .bind_any fun _ => .pure fun _ _ => ?_
    rw [Level.trivia, hkeep]
    rfl
  | conditional =>
    refine .ite .throw (.bind_any fun opening => .ite .throw (.bind_any fun position => ?_))
    refine triple_within (P := fun _ => True) (.bind_any fun es => ?_) (fun _ _ => True.intro)
      fun _ _ h => h
    rcases Level.conditionalFault? opening.2 es with - | fault
    · exact .pure fun _ _ => rfl
    · exact .throw
  | symbolic =>
    refine .bind_any fun _ => .bind_any fun _ => ?_
    exact .ite (.pure fun _ _ => rfl) (.ite (.pure fun _ _ => rfl)
      (.ite (.pure fun _ _ => rfl) .throw))

/-- The default host tells forms with the same core apart neither. -/
theorem interpretTagged_of_core_eq {inConditional : Bool} {tag : Symbol} {f g : Form}
    (hcore : g.core = f.core)
    (h : Level.interpretTagged (.standard regex options) inConditional tag f =
      .ok (.tagged tag f)) :
    Level.interpretTagged (.standard regex options) inConditional tag g = .ok (.tagged tag g) := by
  obtain ⟨-, ⟨text, rfl⟩ | hall⟩ := Level.interpretTagged_eq_ok h
  · obtain rfl : g = .string text := by
      cases g <;> cases hcore
      rfl
    exact h
  · exact hall g

/-- A tag and its form are read back from their text after the hash sign. -/
theorem Level.triple_tagged {tag : Symbol} {tail : List Char}
    (htag : ReadsBack regex options F (.symbol tag)) (hf : ReadsBack regex options F f)
    (hread : Level.interpretTagged (.standard regex options) F.inConditional tag f =
      .ok (.tagged tag f))
    (htail : f.Follows tail) :
    Triple f.isFaithful (State.At · F.up (tag.toText.toList ++ ' ' :: (f.chars ++ tail)))
      (Level.tagged (.nesting (F.remaining + 1)) (.standard regex options))
      (Step.Restores f.isFaithful (.tagged tag f) F.up tail) := by
  have hspace := follows_space (f := .symbol tag) rfl (f.chars ++ tail)
  have hfirst := Level.triple_nested htag [] rfl hspace
  have hsecond := Level.triple_nested hf [' '] rfl htail
  rw [Form.chars_symbol, List.nil_append] at hfirst
  -- the tag is read back as it is, faithful or not
  have hsymbol : Triple true (State.At · F.up (tag.toText.toList ++ ' ' :: (f.chars ++ tail)))
      (Level.nested (.nesting (F.remaining + 1)) (.standard regex options))
      fun g s => g = .symbol tag ∧ s.Before F.up (' ' :: (f.chars ++ tail)) :=
    hfirst.mono (fun _ hs => hs.before) fun g s hg => by
      obtain ⟨hcore, hs⟩ := hg
      cases g <;> cases hcore
      exact ⟨rfl, hs⟩
  refine .bind_eq hsymbol.loosen ?_
  refine hsecond.verdict_bind (fun _ g => .of_and fun hcore => ?_) fun g hg => ?_
  · refine .bind (triple_scopes fun s hs => State.frame_of_before hs) fun scopes => ?_
    refine .of_and fun hscopes => ?_
    have hkept : Level.interpretTagged (.standard regex options) F.up.inConditional tag g =
        .ok (.tagged tag g) := interpretTagged_of_core_eq hcore hread
    rw [hscopes, hkept]
    exact .pure fun s hs => ⟨congrArg (Form.tagged tag) hcore, hs⟩
  · -- a form that says something else is refused, or stays one under the tag
    refine .bind_any fun scopes => ?_
    rcases hread : Level.interpretTagged (.standard regex options)
      scopes.inConditional tag g with e | h
    · exact .throw
    · refine .pure fun _ _ => ?_
      obtain ⟨rfl, -⟩ := Level.interpretTagged_eq_ok hread
      have hsame : (Form.tagged tag f).same (.tagged tag g) = false := by
        rw [Form.same, hg, Bool.and_false]
      exact hsame

/-- A tagged form reads back if the host gives it back for its tag. -/
theorem readsBack_tagged {tag : Symbol} (hkeep : options.trivia = .keep)
    (hplain : Token.isPlain tag.toText.toList = true)
    (htag : ReadsBack regex options F (.symbol tag)) (hf : ReadsBack regex options F f)
    (hread : Level.interpretTagged (.standard regex options) F.inConditional tag f =
      .ok (.tagged tag f)) :
    ReadsBack regex options F.up (.tagged tag f) := by
  refine ⟨'#', tag.toText.toList ++ ' ' :: f.chars, Form.chars_tagged tag f, by decide, nofun,
    fun tail htail => ?_⟩
  have htagged := Level.triple_tagged htag hf hread htail
  obtain ⟨c, cs, hcs⟩ : ∃ c cs, tag.toText.toList = c :: cs := by
    rcases hcs : tag.toText.toList with - | ⟨c, cs⟩
    · rw [hcs] at hplain
      cases hplain
    · exact ⟨c, cs, rfl⟩
  have hfaithful : (Form.tagged tag f).isFaithful =
      ((HashTrigger.ofChar? c).isNone && f.isFaithful) := by
    rw [Form.isFaithful, Symbol.isTag, hcs]
    rfl
  rw [hcs] at htagged
  rw [hfaithful, hcs, List.cons_append, List.cons_append, List.append_assoc]
  -- a tag that begins with a trigger is not read as a tag
  rcases htrigger : HashTrigger.ofChar? c with - | trigger
  · refine .bind_eq ((triple_nextCharacter c).pre fun _ hs => hs.at) ?_
    rw [htrigger]
    exact .bind (triple_unread c) fun _ => htagged
  · refine Level.triple_start_hash htrigger ?_
    exact (triple_startHash_of_tagged hkeep trigger).pre fun _ _ => True.intro

end

end FormTree
