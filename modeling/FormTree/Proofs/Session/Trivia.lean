import FormTree.Proofs.Reader.Mirror
import FormTree.Proofs.Session.Spelled

/-!
# Keeping and skipping trivia

How the two trivia modes compare on one text. Where trivia stands among the elements of a sequence
only, the modes read the same file but for the trivia itself. Where it stands right behind a mark,
an annotation, a backquote or a tag they need not: if it is kept, it is what is marked.
-/

namespace FormTree.Session

variable {regex : RegexEngine} {options : Options} {text : String} {f g : Form}
  {es : List Form} {q : Session} {a b : Spot}

/-- Whether a text, read with trivia skipped, spells forms up to its end, and no trivia stands in it
right behind what is put in front of one form. -/
def IsTightText (regex : RegexEngine) (text : String) (options : Options) : Prop :=
  ∃ es b, SpellsAll (.standard regex { options with trivia := .skip }) false outermost
    (.ofText text) es b ∧
    b.ahead = []

/-- Where trivia is skipped nothing that is read has to be erased. -/
theorem erased_of_readToEnd
    (h : readToEnd (ofText regex text { options with trivia := .skip }) = .ok f q) :
    f.erased = f := by
  obtain ⟨es, rfl, hes⟩ := readToEnd_eq_ok.1 h
  have hlegal := legalAll_of_readAll (stands_ofText regex text { options with trivia := .skip }) hes
  exact congrArg (Form.group .file) (hlegal.erasedAll_eq_self rfl)

/-- A file that shows the same as one that was read with trivia skipped has its core, but for
trivia. -/
theorem erased_core_of_readToEnd
    (h : readToEnd (ofText regex text { options with trivia := .skip }) = .ok g q)
    (hcore : g.core = (Form.file es).core) : g.core = (Form.file es).erased.core := by
  rw [← Form.erased_core, ← hcore, Form.erased_core, erased_of_readToEnd h]

/-- Elements that are spelled up to the end of a text in one mode are spelled so in the other
one. -/
theorem exists_spellsAll_mirrored {l r : TriviaMode} {loose : Bool} (loose' : Bool)
    (hkeep : loose = true → l = .keep)
    (h : SpellsAll (.standard regex { options with trivia := l }) loose outermost a es b)
    (hend : b.ahead = []) (htight : loose = true → Form.allTight es = true) :
    ∃ gs d, SpellsAll (.standard regex { options with trivia := r }) loose' outermost a gs d ∧
      d.ahead = [] ∧ (Form.file gs).erased.core = (Form.file es).erased.core ∧
        Form.allTight gs = true := by
  have hmodes : Mirrorable loose false l r [] := ⟨nofun, hkeep, nofun⟩
  have hmirrored : MirroredAll false []
      (SpellsAll (.standard regex { options with trivia := r }) loose') outermost a es b :=
    h.mirrored hmodes htight fun _ => rfl
  obtain ⟨gs, d, hgs, hd, hshown, htight⟩ := hmirrored outermost a (.refl _) (.nil a)
  refine ⟨gs, d, hgs, ?_, congrArg (Form.group .file) hshown, htight⟩
  rw [hd, hend]
  rfl

/-- **Skipping trivia is erasing it.** Where a file is read with trivia kept, and none stands right
behind what is put in front of one form, a file is read with trivia skipped as well: the same but
for the trivia. -/
theorem exists_readToEnd_skip_of_keep (regex : RegexEngine) (text : String) (options : Options)
    {f : Form} {q : Session}
    (h : readToEnd (ofText regex text { options with trivia := .keep }) = .ok f q)
    (htight : f.isTight = true) :
    ∃ g r, readToEnd (ofText regex text { options with trivia := .skip }) = .ok g r ∧
      g.core = f.erased.core ∧ ∀ e, g.same e = f.erased.same e := by
  obtain ⟨es, b, rfl, hes, hend⟩ := exists_spellsAll_of_readToEnd h
  obtain ⟨gs, d, hgs, hd, hshown, -⟩ :=
    exists_spellsAll_mirrored (r := .skip) true (fun _ => rfl) hes hend fun _ => htight
  obtain ⟨g, r, hg, hcore⟩ := exists_readToEnd_of_spellsAll hgs hd
  have hcore : g.core = (Form.file es).erased.core :=
    (erased_core_of_readToEnd hg hcore).trans hshown
  refine ⟨g, r, hg, hcore, fun e => ?_⟩
  rw [← Form.same_core, hcore, Form.same_core]

/-- A comment in a map, between a key and its value, and a comma in a discarded vector. -/
theorem exists_readToEnd_skip_of_keep_map :
    ∃ f q, readToEnd (ofText .lenient "\x7b:a ;b\n #_[c, d] e\x7d"
      { Options.standard with trivia := .keep }) =
        .ok f q ∧ f.isTight = true ∧
      ∃ g r, readToEnd (ofText .lenient "\x7b:a ;b\n #_[c, d] e\x7d"
        { Options.standard with trivia := .skip }) =
          .ok g r ∧ g.core = f.erased.core ∧ ∀ e, g.same e = f.erased.same e := by
  obtain ⟨f, q, h, hf⟩ := exists_of_gives
    (by decide +kernel : gives Form.isTight (readToEnd (ofText .lenient "\x7b:a ;b\n #_[c, d] e\x7d"
      { Options.standard with trivia := .keep })) = true)
  exact ⟨f, q, h, hf, exists_readToEnd_skip_of_keep _ _ .standard h hf⟩

/-- **Keeping trivia keeps tight texts readable.** A file is read with trivia kept, and no trivia
stands in it right behind what is put in front of one form, if and only if no trivia stands so in
the text and a file is read from it with trivia skipped. The two are the same but for the trivia. -/
theorem exists_readToEnd_keep_iff (regex : RegexEngine) (text : String)
    (options : Options) (core : Form) :
    (∃ f q, readToEnd (ofText regex text { options with trivia := .keep }) = .ok f q ∧
      f.isTight = true ∧ f.erased.core = core) ↔
      IsTightText regex text options ∧
        ∃ g r, readToEnd (ofText regex text { options with trivia := .skip }) = .ok g r ∧
          g.core = core := by
  constructor
  · rintro ⟨f, q, h, htight, rfl⟩
    obtain ⟨es, b, rfl, hes, hend⟩ := exists_spellsAll_of_readToEnd h
    obtain ⟨gs, d, hgs, hd, hshown, -⟩ :=
      exists_spellsAll_mirrored (r := .skip) false (fun _ => rfl) hes hend fun _ => htight
    obtain ⟨g, r, hg, hcore⟩ := exists_readToEnd_of_spellsAll hgs hd
    exact ⟨⟨gs, d, hgs, hd⟩, g, r, hg, (erased_core_of_readToEnd hg hcore).trans hshown⟩
  · rintro ⟨⟨es, b, hes, hend⟩, g, r, hg, rfl⟩
    -- what is read is what the tight text spells, since reading has one result
    obtain ⟨g', r', hg', hcore⟩ := exists_readToEnd_of_spellsAll hes hend
    rw [hg] at hg'
    cases hg'
    have hkeep : false = true → TriviaMode.skip = .keep := nofun
    obtain ⟨fs, d, hfs, hd, hshown, htight⟩ :=
      exists_spellsAll_mirrored (r := .keep) true hkeep hes hend Bool.noConfusion
    obtain ⟨f, q, hf, hfcore⟩ := exists_readToEnd_of_spellsAll hfs hd
    refine ⟨f, q, hf, ?_, ?_⟩
    · rw [← Form.isTight_core, hfcore, Form.isTight_core]
      exact htight
    · rw [← Form.erased_core, hfcore, Form.erased_core, hshown, erased_core_of_readToEnd hg hcore]

/-- The comma of a metadata form is skipped, or is taken for the metadata. -/
example :
    (match readToEnd (ofText .lenient "^,a b" { Options.standard with trivia := .skip }) with
      | .ok _ _ => true
      | .error _ _ => false) = true ∧
    (match readToEnd (ofText .lenient "^,a b" { Options.standard with trivia := .keep }) with
      | .ok _ _ => true
      | .error _ _ => false) = false := by
  decide +kernel

end FormTree.Session
