import FormTree.Proofs.Reader.Cut
import FormTree.Proofs.Session.RoundTrip

/-!
# Texts that are cut off or joined

With the default host a session on a text that is cut off at a blank finds what one on the whole
text finds, up to the cut. A form that is not finished there is reported as an early end of the
input. If the text is cut off at the end of a line, the session on the whole text goes on after the
cut as one that begins there, so that the files of two texts make up the file of the text in which
one stands below the other.
-/

namespace FormTree.Session

open Cursor

variable {c : Char} {rest : List Char} {regex : RegexEngine} {options : Options}
  {p q q' : Session} {fs : List Form}

/-! ### Two sessions -/

/-- Whether two sessions read in the same way, with states that are the same but for their cursors,
and those are in `C`. -/
structure Beside (C : Cursor → Cursor → Prop) (p q : Session) : Prop where
  options_eq : p.options = q.options
  host_eq : p.host = q.host
  state : p.state.Beside C q.state

/-- How reading one form may end in the two texts. Where the shorter one has ended, what is found in
the longer one is what a session beyond the cut finds. -/
inductive FoundNext (c : Char) (rest : List Char) :
    EStateM.Result ReadError Session (Option Form) →
      EStateM.Result ReadError Session (Option Form) → Prop
  | inStep {f : Form} {p q : Session} (h : p.Beside (InStep (c :: rest)) q) :
    FoundNext c rest (.ok (some f) p) (.ok (some f) q)
  | beyond {f g : Form} {p q : Session} (hfg : f.CutOff c g) (h : p.Beside (Beyond c rest) q) :
    FoundNext c rest (.ok (some f) p) (.ok (some g) q)
  | ended {p q : Session} (h : p.Beside (Beyond c rest) q) :
    FoundNext c rest (readOpt p) (.ok none q)
  | error {d e : ReadError} {p q : Session} : FoundNext c rest (.error d p) (.error e q)
  | starved {r : EStateM.Result ReadError Session (Option Form)} {e : ReadError} {q : Session}
    (he : e.cause.category = .endOfInput) : FoundNext c rest r (.error e q)

/-- The text before the cut, beside the text with a character and more after it. -/
theorem beside_ofText (regex : RegexEngine) (text : String) (c : Char) (more : String)
    (options : Options) :
    (ofText regex (text ++ c.toString ++ more) options).Beside (InStep (c :: more.toList))
      (ofText regex text options) := by
  have hspot : (Spot.ofText text).extend (c :: more.toList) =
      .ofText (text ++ c.toString ++ more) := by
    simp [Spot.extend, Spot.ofText, Char.toString]
  refine ⟨rfl, rfl, ⟨.ofText text, ?_, standsAt_ofText text⟩, rfl, rfl, rfl⟩
  rw [hspot]
  exact standsAt_ofText _

/-- A session with the default host gives what its reader finds. -/
theorem readOpt_standard (regex : RegexEngine) (options : Options) (s : State) :
    readOpt ⟨options, .standard regex, s⟩ =
      match (FormReader.nesting (s.remaining + 1)).run (.standard regex options) none s with
      | .ok (.form f) s => .ok (some f) ⟨options, .standard regex, s⟩
      | .ok _ s => .ok none ⟨options, .standard regex, s⟩
      | .error cause s => fail cause ⟨options, .standard regex, s⟩ := by
  have hpolicy : (Host.standard regex).evaluation ≠ .unknown :=
    Host.evaluation_standard_ne_unknown regex
  rw [readOpt, if_neg hpolicy]
  rfl

/-! ### One form -/

/-- **One call across the cut.** Before the cut the two sessions do the same; behind it only what
was cut off differs. -/
theorem foundNext_readOpt (hc : Text.isBlank c = true) (hhost : q.host = .standard regex)
    (h : p.Beside (InStep (c :: rest)) q) : FoundNext c rest (readOpt p) (readOpt q) := by
  obtain ⟨options, host, s⟩ := p
  obtain ⟨_, _, t⟩ := q
  obtain ⟨rfl, rfl, hstate⟩ := h
  obtain rfl : host = .standard regex := hhost
  have hreader : (FormReader.nesting (t.remaining + 1)).Cuts c rest (.standard regex options) :=
    FormReader.cuts_nesting hc rfl _
  have hfound := hreader.inStep none s t hstate
  have hadvances := (FormReader.nesting (t.remaining + 1)).advances (.standard regex options) none t
  rw [readOpt_standard regex options s, readOpt_standard regex options t, hstate.remaining_eq]
  generalize (FormReader.nesting (t.remaining + 1)).run (.standard regex options) none s = r
    at hfound
  generalize (FormReader.nesting (t.remaining + 1)).run (.standard regex options) none t = u
    at hfound hadvances
  cases hfound with
  | form h => exact .inStep ⟨rfl, rfl, h⟩
  | closed hcloser _ => cases hcloser
  | beyond hfg h => exact .beyond hfg ⟨rfl, rfl, h⟩
  | @ended s' t' h =>
    -- the session beyond the cut has the same budget, and so the same reader
    have hread := readOpt_standard regex options s'
    rw [h.remaining_eq.trans hadvances.2.2] at hread
    rw [← hread]
    exact .ended ⟨rfl, rfl, h⟩
  | error => exact .error
  | starved he => exact .starved he

/-- Beyond the cut nothing is left of the shorter text. -/
theorem readOpt_of_beyond (hhost : q.host = .standard regex) (h : p.Beside (Beyond c rest) q) :
    readOpt q = .ok none q := by
  obtain ⟨options, host, t⟩ := q
  obtain rfl : host = .standard regex := hhost
  have hread : (FormReader.nesting (t.remaining + 1)).run (.standard regex options) none t =
      .ok .endOfInput t :=
    Level.read_of_beyond none h.state
  rw [readOpt_standard, hread]

/-- **A text that is cut off at a blank ends too early at worst.** Where reading a form from a text
succeeds, be it that there is none, it succeeds in a text that stops at a blank of the first one, or
fails with an error of the category of an early end. -/
theorem endOfInput_of_readOpt_append (regex : RegexEngine) (text : String) (c : Char)
    (more : String) (options : Options)
    (hc : Text.isBlank c = true) {out : Option Form} {r : Session}
    (h : readOpt (ofText regex (text ++ c.toString ++ more) options) = .ok out r) :
    (∃ out' q, readOpt (ofText regex text options) = .ok out' q) ∨
      ∃ e q, readOpt (ofText regex text options) = .error e q ∧ e.cause.category = .endOfInput := by
  have hfound := foundNext_readOpt hc rfl (beside_ofText regex text c more options)
  generalize readOpt (ofText regex (text ++ c.toString ++ more) options) = u at h hfound
  generalize readOpt (ofText regex text options) = v at hfound
  cases hfound with
  | inStep | beyond | ended => exact .inl ⟨_, _, rfl⟩
  | error => cases h
  | starved he => exact .inr ⟨_, _, rfl, he⟩

/-- A conditional that is cut off behind the caret in it. -/
theorem endOfInput_of_readOpt_append_conditional :
    ∃ out r, Text.isBlank ' ' = true ∧
      readOpt (ofText .lenient ("#?(:clj [^" ++ ' '.toString ++ ":a b])")
        { Options.standard with conditionals := .allow }) = .ok out r ∧
      ((∃ out' q, readOpt (ofText .lenient "#?(:clj [^"
        { Options.standard with conditionals := .allow }) =
          .ok out' q) ∨
        ∃ e q, readOpt (ofText .lenient "#?(:clj [^"
          { Options.standard with conditionals := .allow }) =
          .error e q ∧ e.cause.category = .endOfInput) := by
  obtain ⟨f, r, h⟩ : ∃ f r, readOpt (ofText .lenient ("#?(:clj [^" ++ ' '.toString ++ ":a b])")
      { Options.standard with conditionals := .allow }) = .ok (some f) r :=
    exists_of_gives_isSome (by decide +kernel)
  have hblank : Text.isBlank ' ' = true := by decide
  exact ⟨some f, r, hblank, h, endOfInput_of_readOpt_append _ _ _ _ _ hblank h⟩

/-! ### Files -/

/-- Behind the cut nothing is left of the shorter text. -/
theorem readAll_of_beyond (hhost : q.host = .standard regex) (h : p.Beside (Beyond c rest) q) :
    readAll q = .ok [] q := by
  rw [readAll.eq_def, readOpt_of_beyond hhost h]

/-- A session on the longer text reads the forms of the shorter one and goes on right after the end
of the line at which that was cut off. -/
theorem exists_readAll_eq (hc : Text.isBlank c = true) (hline : Scan.endsLine c = true)
    (hhost : q.host = .standard regex) (h : p.Beside (InStep (c :: rest)) q)
    (hq : readAll q = .ok fs q') :
    ∃ p' : Session, p'.Beside (Beyond c rest) q' ∧
      readAll p =
        match readAll p' with
        | .ok gs r => .ok (fs ++ gs) r
        | .error e r => .error e r := by
  have hfound := foundNext_readOpt hc hhost h
  -- the induction follows the loop on the shorter text, whose end is where the cut is
  fun_induction readAll q generalizing p fs with
  | case1 q f q₁ hf es q₂ hes ih =>
    cases hq
    have hhost₁ : q₁.host = .standard regex := by
      have hframe := sameFrame_readOpt q
      rw [hf] at hframe
      exact hframe.host_eq.trans hhost
    rw [hf] at hfound
    generalize hp : readOpt p = r at hfound
    cases hfound with
    | @inStep _ p₁ _ h =>
      obtain ⟨p', hp', hrest⟩ := ih hhost₁ h hes (foundNext_readOpt hc hhost₁ h)
      refine ⟨p', hp', ?_⟩
      rw [readAll.eq_def p, hp]
      dsimp only
      rw [hrest]
      cases readAll p' <;> rfl
    -- the last form ends with a comment that the cut ends, since its character ends the line
    | @beyond g _ p₁ _ hfg h =>
      obtain rfl : g = f := hfg.eq_of_endsLine hline
      rw [readAll_of_beyond hhost₁ h] at hes
      cases hes
      refine ⟨p₁, h, ?_⟩
      rw [readAll.eq_def p, hp]
      dsimp only
      cases readAll p₁ <;> rfl
  | case3 q q₁ hf =>
    cases hq
    rw [hf] at hfound
    generalize hp : readOpt p = r at hfound
    cases hfound with
    | @ended p₁ _ h =>
      refine ⟨p₁, h, ?_⟩
      rw [readAll_congr hp]
      cases readAll p₁ <;> rfl
  | case2 | case4 => cases hq

/-- What is beyond the cut is read as a text of its own. -/
theorem alike_ofText_of_beside (hline : Scan.endsLine c = true) (text below : String)
    (hq : (ofText regex text options).SameFrame q) (h : p.Beside (Beyond c below.toList) q) :
    (ofText regex below options).Alike p := by
  obtain ⟨a, ha, hstands⟩ := h.state.cursor.2 hline
  have hframe : (ofText regex text options).SameFrame p :=
    ⟨h.options_eq.trans hq.options_eq, h.host_eq.trans hq.host_eq,
      h.state.scopes_eq.trans hq.state.1, h.state.remaining_eq.trans hq.state.2⟩
  have halike := ofText_alike hframe (ha ▸ hstands.pending_eq) hstands.tracked
  rwa [String.ofList_toList] at halike

/-- **The files of two texts make up one file.** Where files are read from two texts, the text in
which the second one stands below the first one gives a file with the forms of both. Positions and
generated names apart the forms are the same, and so the file equals what a file with the forms of
both equals. -/
theorem exists_readToEnd_append (regex : RegexEngine) (above below : String) (options : Options)
    {es fs : List Form} {q r : Session}
    (habove : readToEnd (ofText regex above options) = .ok (.file es) q)
    (hbelow : readToEnd (ofText regex below options) = .ok (.file fs) r) :
    ∃ gs t, readToEnd (ofText regex (above ++ "\n" ++ below) options) = .ok (.file (es ++ gs)) t ∧
      AlikeAll fs gs ∧ ∀ f, (Form.file (es ++ gs)).same f = (Form.file (es ++ fs)).same f := by
  obtain ⟨_, ⟨⟩, hes⟩ := readToEnd_eq_ok.1 habove
  obtain ⟨_, ⟨⟩, hfs⟩ := readToEnd_eq_ok.1 hbelow
  have hframe := sameFrame_readAll (ofText regex above options)
  rw [hes] at hframe
  have hline : Scan.endsLine '\n' = true := by decide
  obtain ⟨p, hp, hall⟩ :=
    exists_readAll_eq (by decide) hline rfl (beside_ofText regex above '\n' below options) hes
  have hread := alike_readAll _ _ (alike_ofText_of_beside hline above below hframe hp)
  rw [hfs] at hread
  obtain ⟨gs, t, hgs, halike, -⟩ := hread.exists_of_ok
  rw [hgs] at hall
  refine ⟨gs, t, readToEnd_eq_ok.2 ⟨es ++ gs, rfl, hall⟩, halike, fun f => ?_⟩
  have hcore : (Form.file (es ++ gs)).core = (Form.file (es ++ fs)).core := by
    simp only [Form.file, Form.core, Form.coreAll_eq_map, List.map_append]
    rw [← Form.coreAll_eq_map gs, ← halike.coreAll_eq, Form.coreAll_eq_map]
  rw [← Form.same_core, hcore, Form.same_core]

/-- The first text ends with a comment, right behind a sign. -/
theorem exists_readToEnd_append_comment :
    ∃ es fs q r, readToEnd (ofText .lenient "#(f %) `a# -; b"
      { Options.standard with trivia := .keep }) =
        .ok (.file es) q ∧
      readToEnd (ofText .lenient "^c [`d# \\e] #_ g" { Options.standard with trivia := .keep }) =
        .ok (.file fs) r ∧
      ∃ gs t, readToEnd (ofText .lenient ("#(f %) `a# -; b" ++ "\n" ++ "^c [`d# \\e] #_ g")
          { Options.standard with trivia := .keep }) = .ok (.file (es ++ gs)) t ∧
        AlikeAll fs gs ∧ ∀ f, (Form.file (es ++ gs)).same f = (Form.file (es ++ fs)).same f := by
  obtain ⟨_, q, habove, -⟩ := exists_of_gives
    (by decide +kernel : gives Form.isFaithful (readToEnd (ofText .lenient "#(f %) `a# -; b"
      { Options.standard with trivia := .keep })) = true)
  obtain ⟨_, r, hbelow, -⟩ := exists_of_gives
    (by decide +kernel : gives Form.isFaithful (readToEnd (ofText .lenient "^c [`d# \\e] #_ g"
      { Options.standard with trivia := .keep })) = true)
  obtain ⟨es, rfl, -⟩ := readToEnd_eq_ok.1 habove
  obtain ⟨fs, rfl, -⟩ := readToEnd_eq_ok.1 hbelow
  exact ⟨es, fs, q, r, habove, hbelow, exists_readToEnd_append _ _ _ _ habove hbelow⟩

end FormTree.Session
