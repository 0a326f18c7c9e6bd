import FormTree.Proofs.Form.Readable
import FormTree.Proofs.Reader.Bracketed
import FormTree.Proofs.Session.Legal

/-!
# Round trips

What a session reads from the text of forms. A text that has been read as a file and is written back
out reads as the same file if and only if the file is faithful.
-/

namespace FormTree.Session

open Read

/-- Whether a session with these options and the default host stands at the outermost level, with
these characters left, but for a line break before them. -/
def Before (p : Session) (regex : RegexEngine) (options : Options) (cs : List Char) : Prop :=
  p.options = options ∧ p.host = .standard regex ∧ p.state.Before outermost cs

theorem Before.stands {p : Session} {regex : RegexEngine} {options : Options} {cs : List Char}
    (h : p.Before regex options cs) :
    p.Stands regex options :=
  ⟨h.1, h.2.1, State.frame_of_before h.2.2⟩

/-- A session on a text begins before it. -/
theorem before_ofText (regex : RegexEngine) (text : String) (options : Options) :
    (ofText regex text options).Before regex options text.toList :=
  ⟨rfl, rfl, State.At.before ⟨rfl, Cursor.at_ofText text⟩⟩

variable {regex : RegexEngine} {options : Options} {tail : List Char} {f : Form} {es : List Form}

/-! ### One form -/

/-- The text of a form that reads back is read in one call. -/
theorem triple_readOpt (hf : ReadsBack regex options outermost f) (ws : List Char)
    (hws : ws.all Text.isBlank = true) (htail : f.Follows tail) :
    Triple f.isFaithful (Before · regex options (ws ++ (f.chars ++ tail))) readOpt
      (Verdict f.isFaithful (fun out p => (∃ g, out = some g ∧ g.core = f.core) ∧
        p.Before regex options tail)
        fun out => ∃ g, out = some g ∧ f.same g = false) := by
  intro p hp
  have hrun := Level.triple_run hf Level.awaits_none ws hws htail p.state hp.2.2
  rw [readOpt_of_stands hp.stands]
  rcases h : (FormReader.nesting (outermost.remaining + 1)).run (.standard regex options) none
    p.state with ⟨out, s⟩ | ⟨e, s⟩
  · rw [h] at hrun
    rcases hfaithful : f.isFaithful with - | -
    · rw [hfaithful] at hrun
      rcases out with g | - | -
      · exact ⟨g, rfl, hrun⟩
      · exact hrun.elim
      · exact hrun.elim
    · rw [hfaithful] at hrun
      rcases out with g | - | -
      · exact ⟨⟨g, rfl, hrun.1⟩, hp.1, hp.2.1, hrun.2⟩
      · exact hrun.1.elim
      · exact hrun.1.elim
  · rw [h] at hrun
    exact hrun

/-- Where only blanks are left nothing is read. -/
theorem triple_readOpt_blanks {total : Bool} {ws : List Char} (hws : ws.all Text.isBlank = true) :
    Triple total (Before · regex options ws) readOpt fun out p => out = none ∧
      p.Before regex options [] := by
  intro p hp
  have hrun : Triple true (State.Before · outermost ws)
      (Level.read (.nesting outermost.remaining) (.standard regex options) none : Read Outcome)
      fun out s => out = .endOfInput ∧ s.Before outermost [] := by
    rw [Level.read_eq]
    exact .bind_eq (triple_nextForm_blanks hws) (.pure fun s hs => ⟨rfl, hs.before⟩)
  obtain ⟨out, s, h, rfl, hs⟩ := hrun.exists_ok hp.2.2
  have hread : (FormReader.nesting (outermost.remaining + 1)).run
      (.standard regex options) none p.state =
      .ok .endOfInput s := h
  rw [readOpt_of_stands hp.stands, hread]
  exact ⟨rfl, hp.1, hp.2.1, hs⟩

/-! ### Whole files -/

/-- Before the text of a form on a line of its own stand only blanks. -/
theorem exists_charsByLine_cons (first : Bool) (f : Form) (rest : List Form) :
    ∃ ws, ws.all Text.isBlank = true ∧
      Form.charsByLine first (f :: rest) = ws ++ (f.chars ++ Form.charsByLine false rest) := by
  rcases first with - | -
  · exact ⟨['\n'], by decide, Form.charsByLine_false f rest⟩
  · exact ⟨[], rfl, Form.charsByLine_true f rest⟩

theorem follows_nil (f : Form) : f.Follows [] := nofun

/-- A line break may follow any form, a comment included. -/
theorem follows_charsByLine (f : Form) (rest : List Form) :
    f.Follows (Form.charsByLine false rest) := by
  intro c hc
  rcases rest with - | ⟨g, rest⟩
  · cases hc
  · rw [Form.charsByLine_false] at hc
    obtain rfl : '\n' = c := Option.some.inj hc
    split
    · rfl
    · decide

/-- The text of forms that read back is read as forms with the same core. -/
theorem triple_readAll (hes : ∀ f ∈ es, ReadsBack regex options outermost f) (first : Bool) :
    Triple (Form.allFaithful es) (Before · regex options (Form.charsByLine first es))
      (readAll : Call (List Form))
      (Verdict (Form.allFaithful es) (fun gs _ => Form.coreAll gs = Form.coreAll es)
        (Form.sameAll es · = false)) := by
  induction es generalizing first with
  | nil =>
    rw [readAll_eq]
    exact .bind_eq (triple_readOpt_blanks rfl) (.pure fun _ _ => rfl)
  | cons f rest ih =>
    obtain ⟨ws, hws, hchars⟩ := exists_charsByLine_cons first f rest
    have hread := triple_readOpt (hes f List.mem_cons_self) ws hws (follows_charsByLine f rest)
    have hrest := ih (fun g hg => hes g (List.mem_cons_of_mem _ hg)) false
    rw [readAll_eq, hchars, Form.allFaithful]
    -- a first form that says something else settles the matter, whatever the others give
    refine hread.verdict (fun _ out => .of_and ?_) fun out hout => ?_
    · rintro ⟨g, rfl, hg⟩
      refine hrest.verdict_map (fun gs _ hgs => congrArg₂ List.cons hg hgs) fun gs hgs => ?_
      rw [Form.sameAll, hgs, Bool.and_false]
    · obtain ⟨g, rfl, hg⟩ := hout
      refine .map (.trivial _ fun _ _ => True.intro) fun gs _ _ => ?_
      rw [Form.sameAll, hg, Bool.false_and]

/-- A file has the forms that are read up to the end. -/
theorem readToEnd_eq_ok {p q : Session} :
    readToEnd p = .ok f q ↔ ∃ es, f = .file es ∧ readAll p = .ok es q := by
  have hmap : readToEnd p = .ok f q ↔ ∃ es, readAll p = .ok es q ∧ Form.file es = f :=
    map_eq_ok (m := (readAll : Call (List Form)))
  rw [hmap]
  constructor
  · rintro ⟨es, h, rfl⟩
    exact ⟨es, rfl, h⟩
  · rintro ⟨es, rfl, h⟩
    exact ⟨es, h, rfl⟩

/-- A session on the text of a form stands before the characters of the form. -/
theorem before_ofText_emit (regex : RegexEngine) (options : Options) {text : String}
    (h : f.emit? = some text) :
    (ofText regex text options).Before regex options f.chars :=
  (Form.emit?_eq_some_iff_chars.1 h).2 ▸ before_ofText regex text options

/-- **The text of a file.** A file that has been read has a text that, read again with the same
options, gives a file that says the same and has the same text, if and only if it is faithful. Any
engine may compile the regular expressions, as long as it is the same one both times. -/
theorem exists_readToEnd_emit_iff {text : String} (hkeep : options.trivia = .keep) {q : Session}
    (h : readToEnd (ofText regex text options) = .ok f q) :
    (∃ emitted g r, f.emit? = some emitted ∧ readToEnd (ofText regex emitted options) = .ok g r ∧
      f.same g = true ∧ g.emit? = some emitted) ↔ f.isFaithful = true := by
  obtain ⟨es, rfl, hes⟩ := readToEnd_eq_ok.1 h
  have hlegal := legalAll_of_readAll (stands_ofText regex text options) hes
  have hread := triple_readAll (fun f hf => (hlegal.of_mem hf).readsBack hkeep) true
  have hchars : (Form.file es).chars = Form.charsByLine true es := Form.chars_file es
  have hfaithful : (Form.file es).isFaithful = Form.allFaithful es := rfl
  rw [hfaithful]
  -- what is read from the text settles both directions at once, faithful or not
  rcases hall : Form.allFaithful es with - | -
  · rw [hall] at hread
    refine iff_of_false ?_ Bool.false_ne_true
    rintro ⟨emitted, g, r, hemit, hg, hsame, -⟩
    obtain ⟨gs, rfl, hgs⟩ := readToEnd_eq_ok.1 hg
    have hnot : Form.sameAll es gs = false :=
      hread.of_eq_ok (hchars ▸ before_ofText_emit _ _ hemit) hgs
    have hfile : (Form.file es).same (.file gs) = false := same_group_eq_false hnot
    rw [hfile] at hsame
    cases hsame
  · rw [hall] at hread
    refine iff_of_true ?_ rfl
    have hemit : (Form.file es).emit? = some (Form.file es).spelling :=
      Form.emit?_eq_some_iff.2 ⟨Form.overflows_of_isFaithful hall, rfl⟩
    obtain ⟨gs, r, hgs, hcores⟩ := hread.exists_ok (hchars ▸ before_ofText_emit _ _ hemit)
    have hcore : (Form.file es).core = (Form.file gs).core :=
      congrArg (Form.group .file) (Eq.symm hcores)
    refine ⟨_, .file gs, r, hemit, readToEnd_eq_ok.2 ⟨gs, rfl, hgs⟩,
      Form.same_of_core_eq hall hcore, ?_⟩
    rw [← Form.emit?_core, ← hcore, Form.emit?_core, hemit]

/-- A conditional before a comment is read back, a dereference behind an unquote is not. -/
theorem readToEnd_emit_conditional_and_deref :
    (∃ f q, readToEnd (ofText .lenient "#?(:clj ^a [1.5 #\"b\"]) ; c"
        { Options.standard with conditionals := .allow }) = .ok f q ∧
      ∃ emitted g r, f.emit? = some emitted ∧
        readToEnd (ofText .lenient emitted { Options.standard with conditionals := .allow }) =
          .ok g r ∧ f.same g = true ∧ g.emit? = some emitted) ∧
    ∃ f q, readToEnd (ofText .lenient "~ @x" .standard) = .ok f q ∧
      ¬ ∃ emitted g r, f.emit? = some emitted ∧
        readToEnd (ofText .lenient emitted .standard) = .ok g r ∧ f.same g = true ∧
          g.emit? = some emitted := by
  constructor
  · obtain ⟨f, q, h, hf⟩ := exists_of_gives
      (by decide +kernel : gives Form.isFaithful (readToEnd
        (ofText .lenient "#?(:clj ^a [1.5 #\"b\"]) ; c"
          { Options.standard with conditionals := .allow })) = true)
    exact ⟨f, q, h, (exists_readToEnd_emit_iff rfl h).2 hf⟩
  · obtain ⟨f, q, h, hf⟩ := exists_of_gives
      (by decide +kernel :
        gives (!·.isFaithful) (readToEnd (ofText .lenient "~ @x" .standard)) = true)
    refine ⟨f, q, h, fun hg => ?_⟩
    rw [(exists_readToEnd_emit_iff rfl h).1 hg] at hf
    cases hf

/-! ### Trees -/

/-- Nothing is left before the end of a text. -/
theorem Before.pending_eq_nil {p : Session} (h : p.Before regex options []) :
    p.state.cursor.pending = [] := by
  obtain ⟨-, -, rest, hrest, hat⟩ := h
  obtain rfl : rest = [] := by
    rcases hrest with hrest | hrest
    · exact hrest.symm
    · cases hrest
  exact hat.2

/-- **The text of a tree.** A readable form has a text, and that text, read with conditionals
allowed, gives a form that says the same and leaves nothing to read, if and only if no unquote in
the form stands right before a dereference. The patterns of the form are those that the engine
compiles. -/
theorem exists_readOpt_emit_iff {t : Form} (ht : t.IsReadable regex)
    (hkeep : options.trivia = .keep) (hallow : options.conditionals = .allow) :
    ∃ text, t.emit? = some text ∧
      ((∃ g q, readOpt (ofText regex text options) = .ok (some g) q ∧ t.same g = true ∧
        q.state.cursor.pending = []) ↔
          ∀ f, .marked .unquote f ∈ t.nodes → f.isDeref = false) := by
  have hfit : Form.Fit regex outermost t.nodes t.depth :=
    ⟨ht.isWellFormed, ht.isReadableAtom, nofun, ht.depth_le⟩
  have hback := (hfit.legal hkeep hallow).readsBack hkeep
  have hemit : t.emit? = some t.spelling :=
    Form.emit?_eq_some_iff.2 ⟨ht.overflows_eq_false, rfl⟩
  refine ⟨_, hemit, ?_⟩
  have hbefore := before_ofText_emit regex options (t.emit?_core.trans hemit)
  have hread := triple_readOpt hback [] rfl (follows_nil t.core)
  rw [← List.append_nil t.core.chars] at hbefore
  rw [Form.isFaithful_core] at hread
  rw [← ht.isFaithful_iff]
  -- the core of the tree is legal, so what is proved of legal forms decides
  rcases hfaithful : t.isFaithful with - | -
  · rw [hfaithful] at hread
    refine iff_of_false ?_ Bool.false_ne_true
    rintro ⟨g, q, hg, hsame, -⟩
    obtain ⟨h, hh, hnot⟩ : ∃ h, some g = some h ∧ t.core.same h = false :=
      hread.of_eq_ok hbefore hg
    cases hh
    rw [Form.same_core, hsame] at hnot
    cases hnot
  · rw [hfaithful] at hread
    refine iff_of_true ?_ rfl
    obtain ⟨_, q, hq, ⟨g, rfl, hcore⟩, hend⟩ := hread.exists_ok hbefore
    refine ⟨g, q, hq, ?_, hend.pending_eq_nil⟩
    rw [← Form.same_core]
    refine Form.same_of_core_eq ?_ ?_
    · rw [Form.isFaithful_core, hfaithful]
    · exact hcore.symm

/-- A list with a pattern and a comment in it is read back, a dereference behind an unquote is
not. -/
theorem readOpt_emit_list_and_deref :
    (∃ text, (Form.list .empty [.pattern "b+" true, .comment .line " b"]).emit? = some text ∧
      ∃ g q, readOpt (ofText .lenient text { Options.standard with conditionals := .allow }) =
          .ok (some g) q ∧
        (Form.list .empty [.pattern "b+" true, .comment .line " b"]).same g = true ∧
          q.state.cursor.pending = []) ∧
    ∃ text, (Form.marked .unquote (.marked .deref (.symbol (.simple "x")))).emit? = some text ∧
      ¬ ∃ g q, readOpt (ofText .lenient text { Options.standard with conditionals := .allow }) =
          .ok (some g) q ∧
        (Form.marked .unquote (.marked .deref (.symbol (.simple "x")))).same g = true ∧
          q.state.cursor.pending = [] := by
  have hlist :
      (Form.list .empty [.pattern "b+" true, .comment .line " b"]).IsReadable .lenient := by
    refine ⟨?_, ?_, by decide⟩
    · simp [Form.nodes, Form.nodesOf, Form.IsWellFormed]
    · simp only [Form.nodes, Form.nodesOf, List.cons_append, List.nil_append, List.mem_cons,
        forall_eq_or_imp]
      exact ⟨trivial, ⟨by decide, rfl⟩, trivial, nofun⟩
  have hderef :
      (Form.marked .unquote (.marked .deref (.symbol (.simple "x")))).IsReadable .lenient := by
    refine ⟨?_, ?_, by decide⟩
    · simp [Form.nodes, Form.IsWellFormed]
    · simp only [Form.nodes, List.mem_cons, forall_eq_or_imp]
      exact ⟨trivial, trivial, ⟨by decide, rfl⟩, nofun⟩
  have hallow : { Options.standard with conditionals := .allow }.conditionals = .allow := rfl
  constructor
  · obtain ⟨text, htext, hiff⟩ := exists_readOpt_emit_iff hlist rfl hallow
    refine ⟨text, htext, hiff.2 fun f hf => ?_⟩
    simp [Form.nodes, Form.nodesOf] at hf
  · obtain ⟨text, htext, hiff⟩ := exists_readOpt_emit_iff hderef rfl hallow
    refine ⟨text, htext, fun h => ?_⟩
    have hnot := hiff.1 h _ List.mem_cons_self
    cases hnot

end FormTree.Session
