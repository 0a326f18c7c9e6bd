import FormTree.Proofs.Reader.Mirror

/-!
# Stacked discards

What discard marks right behind each other do, with texts after them that are one form each. Where
trivia is kept, a discarded form is a form: each mark discards the one behind it, and the last one
discards the first text, so that all of them together take that text only. Where trivia is skipped,
each mark but the last goes on to the next form after those that the marks behind it take, so that
they take as many texts as they are.
-/

namespace FormTree

variable {setting : Setting} {full : Bool} {levels m n : Nat} {F : Frame} {p q r : Spot} {f : Form}
  {fs : List Form} {text ws ext : List Char} {texts : List (List Char)}

/-! ### Texts of one form -/

/-- Whether a text, wherever it stands with that many levels left and with what ends a token after
it, spells a form that shows the same as `f`, and then blanks. -/
def IsPiece (setting : Setting) (full : Bool) (levels : Nat) (text : List Char) (f : Form) : Prop :=
  ∀ n p ext, levels ≤ n → (∀ c ∈ ext.head?, endsToken c = true) → p.ahead = text ++ ext →
    ∃ g q ws, SpellsNext setting true ⟨false, 0, n⟩ p g q ∧ q.ahead = ws ++ ext ∧
      ws.all Text.isBlank = true ∧ g.shown full = f.shown full

/-- A text is a piece in both modes if it spells a tight form where trivia is kept. -/
theorem isPiece_of_spellsNext {regex : RegexEngine} {options : Options} {mode : TriviaMode}
    (hfull : full = true → mode = .keep)
    (h : SpellsNext (.standard regex { options with trivia := .keep })
      true ⟨false, 0, levels⟩ p f q)
    (hp : p.ahead = text) (hq : q.ahead.all Text.isBlank = true) (htrivia : f.isTrivia = false)
    (htight : f.isTight = true) :
    IsPiece (.standard regex { options with trivia := mode }) full levels text f := by
  intro n p' ext hn hext hp'
  have hoperand : true = true → (!f.isTrivia && f.isTight) = true := by
    intro _
    rw [htrivia, htight]
    rfl
  have hmodes : Mirrorable true full .keep mode ext := ⟨hext, fun _ => rfl, fun h => ⟨rfl, hfull h⟩⟩
  have hmirrored : Mirrored full ext
      (SpellsNext (.standard regex { options with trivia := mode }) true) ⟨false, 0, levels⟩ p f
        q :=
    h.mirrored hmodes hoperand
  have hextended : p.IsExtended ext p' := by rw [Spot.IsExtended, hp', hp]
  obtain ⟨g, q', hg, hq', hshown, -⟩ := hmirrored ⟨false, 0, n⟩ p' ⟨rfl, rfl, hn⟩ hextended
  exact ⟨g, q', q.ahead, hg, hq', hq, hshown⟩

/-- Texts with a space before each of them. -/
def spaced (texts : List (List Char)) : List Char := texts.flatMap (' ' :: ·)

theorem spaced_append (texts others : List (List Char)) :
    spaced (texts ++ others) = spaced texts ++ spaced others :=
  List.flatMap_append

/-- What comes after a text of a row ends a token: a space, or what is behind the row. -/
theorem endsToken_spaced (hext : ∀ c ∈ ext.head?, endsToken c = true) :
    ∀ c ∈ (spaced texts ++ ext).head?, endsToken c = true := by
  rcases texts with - | ⟨text, texts⟩
  · exact hext
  · rintro c ⟨⟩
    decide

/-- Blanks after blanks are blanks. -/
theorem Spot.Blanks.trans (h : p.Blanks q) (h' : q.Blanks r) : p.Blanks r := by
  obtain ⟨ws, hws, hall⟩ := h
  obtain ⟨ws', hws', hall'⟩ := h'
  exact ⟨ws ++ ws', hws.trans hws', by rw [List.all_append, hall, hall']; rfl⟩

/-- More blanks may stand before what is spelled next. -/
theorem SpellsNext.after_blanks {loose : Bool} (hblanks : p.Blanks q)
    (h : SpellsNext setting loose F q f r) : SpellsNext setting loose F p f r := by
  cases h with
  | form hblanks' h => exact .form (hblanks.trans hblanks') h
  | kept hloose hmode hblanks' h => exact .kept hloose hmode (hblanks.trans hblanks') h
  | skipped hloose hmode hblanks' h hnext =>
    exact .skipped hloose hmode (hblanks.trans hblanks') h hnext

/-- A text of one form is found after blanks and a space. -/
theorem IsPiece.exists_spellsNext (h : IsPiece setting full levels text f) (hn : levels ≤ n)
    (hext : ∀ c ∈ ext.head?, endsToken c = true) (hws : ws.all Text.isBlank = true)
    (hp : p.ahead = ws ++ (' ' :: text ++ ext)) :
    ∃ g q ws, SpellsNext setting true ⟨false, 0, n⟩ p g q ∧ q.ahead = ws ++ ext ∧
      ws.all Text.isBlank = true ∧ g.shown full = f.shown full := by
  have hp : p.ahead = (ws ++ [' ']) ++ (text ++ ext) := by
    rw [hp, List.append_assoc]
    rfl
  obtain ⟨q, hq, hahead⟩ := Spot.exists_takes hp
  obtain ⟨g, r, ws', hg, hr, hws', hshown⟩ := h n q ext hn hext hahead
  have hblanks : p.Blanks q := by
    refine ⟨_, hq, ?_⟩
    rw [List.all_append, hws]
    decide
  exact ⟨g, r, ws', hg.after_blanks hblanks, hr, hws', hshown⟩

/-- Texts of one form each, separated by spaces, spell those forms. -/
theorem exists_spellsAll_of_pieces (h : List.Forall₂ (IsPiece setting full levels) texts fs)
    (htrivia : ∀ f ∈ fs, f.isTrivia = false) (hn : levels ≤ n)
    (hext : ∀ c ∈ ext.head?, endsToken c = true) (hws : ws.all Text.isBlank = true)
    (hp : p.ahead = ws ++ (spaced texts ++ ext)) :
    ∃ gs q, SpellsAll setting true ⟨false, 0, n⟩ p gs q ∧ q.ahead = ext ∧
      Form.shownAll full gs = Form.shownAll full fs := by
  induction h generalizing p ws with
  | nil =>
    obtain ⟨q, hq, hahead⟩ := Spot.exists_takes hp
    exact ⟨[], q, .nil ⟨ws, hq, hws⟩, hahead, rfl⟩
  | @cons text f texts fs hf _ ih =>
    obtain ⟨hfTrivia, htrivia⟩ := List.forall_mem_cons.1 htrivia
    have hp : p.ahead = ws ++ (' ' :: text ++ (spaced texts ++ ext)) := by
      rw [hp, spaced, List.flatMap_cons, List.append_assoc]
      rfl
    obtain ⟨g, q, ws', hg, hq, hws', hshown⟩ :=
      hf.exists_spellsNext hn (endsToken_spaced hext) hws hp
    obtain ⟨gs, r, hgs, hr, hshownAll⟩ := ih htrivia hws' hq
    have hgTrivia : g.isTrivia = false := by
      rw [← Form.isTrivia_shown full, hshown, Form.isTrivia_shown, hfTrivia]
    refine ⟨g :: gs, r, hg.cons hgs, hr, ?_⟩
    rw [Form.shownAll_cons full hgTrivia, Form.shownAll_cons full hfTrivia, hshown, hshownAll]

/-! ### Stacks of marks -/

/-- Discard marks right behind each other. -/
def discardMarks (n : Nat) : List Char := (List.replicate n ['#', '_']).flatten

/-- Behind the first of some marks stand the others. -/
theorem exists_takes_discardMarks (hp : p.ahead = discardMarks (n + 1) ++ ext) :
    ∃ q, p.Takes ['#', '_'] q ∧ q.ahead = discardMarks n ++ ext := by
  refine Spot.exists_takes ?_
  rw [hp, discardMarks, List.replicate_succ, List.flatten_cons, List.append_assoc]
  rfl

/-- A mark right before a text of one form discards it. -/
theorem IsPiece.exists_spellsTrivia (h : IsPiece setting full levels text f) (hn : levels ≤ n)
    (hext : ∀ c ∈ ext.head?, endsToken c = true) (hp : p.ahead = discardMarks 1 ++ (text ++ ext)) :
    ∃ g q ws, SpellsTrivia setting true ⟨false, 0, n + 1⟩ p g q ∧ q.ahead = ws ++ ext ∧
      ws.all Text.isBlank = true := by
  obtain ⟨q, hq, hahead⟩ := exists_takes_discardMarks hp
  obtain ⟨g, r, ws, hg, hr, hws, -⟩ := h n q ext hn hext hahead
  exact ⟨_, r, ws, .discard hq hg, hr, hws⟩

/-- Where trivia is kept, a stack of marks takes one form. -/
theorem exists_spellsTrivia_of_keep (hmode : setting.options.trivia = .keep)
    (h : IsPiece setting full levels text f) (hm : levels ≤ m)
    (hext : ∀ c ∈ ext.head?, endsToken c = true) (k : Nat)
    (hp : p.ahead = discardMarks (k + 1) ++ (text ++ ext)) :
    ∃ g q ws, SpellsTrivia setting true ⟨false, 0, m + (k + 1)⟩ p g q ∧ q.ahead = ws ++ ext ∧
      ws.all Text.isBlank = true := by
  induction k generalizing p with
  | zero => exact h.exists_spellsTrivia hm hext hp
  | succ k ih =>
    obtain ⟨q, hq, hahead⟩ := exists_takes_discardMarks hp
    obtain ⟨g, r, ws, hg, hr, hws⟩ := ih hahead
    -- what the marks behind the first one discard is a form, and it is the one it discards
    exact ⟨_, r, ws, .discard hq (.kept rfl hmode (.refl q) hg), hr, hws⟩

/-- Where trivia is skipped, a stack of marks takes as many forms as there are marks. The induction
takes the last text off: it is the form of the first mark. -/
theorem exists_spellsTrivia_of_skip (hmode : setting.options.trivia = .skip) (hm : levels ≤ m)
    (h : ∀ t ∈ text :: texts, ∃ f, IsPiece setting full levels t f)
    (hext : ∀ c ∈ ext.head?, endsToken c = true)
    (hp : p.ahead = discardMarks (texts.length + 1) ++ (text ++ (spaced texts ++ ext))) :
    ∃ g q ws, SpellsTrivia setting true ⟨false, 0, m + (texts.length + 1)⟩ p g q ∧
      q.ahead = ws ++ ext ∧ ws.all Text.isBlank = true := by
  induction texts using List.reverseRecOn generalizing p ext with
  | nil =>
    obtain ⟨f, hf⟩ := h text List.mem_cons_self
    exact hf.exists_spellsTrivia hm hext hp
  | append_singleton texts last ih =>
    have hlength : (texts ++ [last]).length = texts.length + 1 := by simp
    have hlast : spaced [last] = ' ' :: last := by simp [spaced]
    rw [hlength, spaced_append, hlast, List.append_assoc] at hp
    rw [hlength]
    -- the marks behind the first one take all texts but the last
    obtain ⟨q, hq, hahead⟩ := exists_takes_discardMarks hp
    have hspace : ∀ c ∈ (' ' :: last ++ ext).head?, endsToken c = true := by
      rintro c ⟨⟩
      decide
    have hinit : ∀ t ∈ text :: texts, ∃ f, IsPiece setting full levels t f := by
      intro t ht
      refine h t ?_
      rw [← List.cons_append]
      exact List.mem_append_left _ ht
    obtain ⟨g, r, ws, hg, hr, hws⟩ := ih hinit hspace hahead
    obtain ⟨f, hf⟩ := h last (by simp)
    obtain ⟨e, t, ws', he, ht, hws', -⟩ :=
      hf.exists_spellsNext (Nat.le_add_right_of_le hm) hext hws hr
    exact ⟨_, t, ws', .discard hq (.skipped rfl hmode (.refl q) hg he), ht, hws'⟩

end FormTree
