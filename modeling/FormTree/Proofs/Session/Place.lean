import FormTree.Proofs.Reader.Placed
import FormTree.Proofs.Reader.Spelled
import FormTree.Proofs.Session.Legal

/-!
# Where sessions stand in their text

Whatever calls have been made on a session, and whether they succeeded or failed, it stands
somewhere in its text: what it has delivered and what it has left are that text, it tells the
position of the character delivered last, and the next form that it reads is spelled right there.
-/

namespace FormTree.Session

open Read

/-- Whether a session is between two calls at a place in a text. -/
def StandsIn (p : Session) (a : Spot) : Prop :=
  p.state.frame = outermost ∧ p.state.cursor.StandsAt a

/-- Whether a session is between two calls somewhere in the text of a place. -/
def StandsInText (a : Spot) (p : Session) : Prop :=
  ∃ b : Spot, b.text = a.text ∧ p.StandsIn b

theorem standsIn_ofText (text : String) (options : Options) (host : Host) :
    (ofCursor (.ofText text) options host).StandsIn (.ofText text) :=
  ⟨rfl, Cursor.standsAt_ofText text⟩

variable {p q : Session} {a b : Spot}

/-- A session that stands at a spot stands somewhere in its text. -/
theorem StandsIn.inText (h : p.StandsIn a) : StandsInText a p := ⟨a, rfl, h⟩

theorem StandsInText.of_text_eq (h : StandsInText b p) (htext : b.text = a.text) :
    StandsInText a p := by
  obtain ⟨d, hd, h⟩ := h
  exact ⟨d, hd.trans htext, h⟩

/-! ### What calls leave -/

/-- What the levels of a session read is spelled. -/
theorem ends_run (h : p.StandsIn a) :
    Ends outermost a (Outcome.IsSpelled p.setting none outermost a)
      (p.reader.run p.setting none p.state) :=
  FormReader.isSound_nesting p.setting _ none outermost a p.state h.1 h.2

/-- What a session with a whole frame reads with fails in that frame. -/
theorem standsInText_of_error {cause : Cause} {s : State} (h : p.StandsIn a)
    (hr : p.reader.run p.setting none p.state = .error cause s) :
    StandsInText a { p with state := s } := by
  obtain ⟨b, hb, htext⟩ := (ends_run h).of_error hr
  have hs := settles_of_advances (p.reader.advances p.setting none p.state)
  rw [hr] at hs
  obtain ⟨-, hscopes, hremaining⟩ := hs
  refine ⟨b, htext, ?_, hb⟩
  have hframe := h.1
  rw [State.frame] at hframe ⊢
  rw [← hframe]
  exact congrArg₂ (fun scopes remaining => Frame.mk scopes.inFunction scopes.conditionals remaining)
    hscopes hremaining

/-- Reading goes on in the same text, whether it succeeds or fails. -/
theorem standsInText_readOpt (h : p.StandsIn a) : StandsInText a (stateOf (readOpt p)) := by
  rw [readOpt]
  split
  · exact h.inText
  · have hrun := ends_run h
    split
    · rename_i hr
      obtain ⟨hs, b, hb, htext, -⟩ := hrun.of_ok hr
      exact ⟨b, htext, hs, hb⟩
    · rename_i hr
      obtain ⟨hs, b, hb, htext, -⟩ := hrun.of_ok hr
      exact ⟨b, htext, hs, hb⟩
    · rename_i hr
      exact standsInText_of_error h hr

/-- A form that a call gives is spelled from where the session stood to where it stands. -/
theorem exists_spellsNext_of_readOpt {f : Form} (h : p.StandsIn a)
    (hr : readOpt p = .ok (some f) q) :
    ∃ b : Spot, b.text = a.text ∧ q.StandsIn b ∧ SpellsNext p.setting true outermost a f b := by
  obtain ⟨-, s, hs, rfl⟩ := exists_run_of_readOpt_some hr
  obtain ⟨hframe, b, hb, htext, hf⟩ := (ends_run h).of_ok hs
  exact ⟨b, htext, ⟨hframe, hb⟩, hf⟩

/-- Where a call gives nothing, nothing but blanks and skipped trivia is left. -/
theorem exists_spellsAll_of_readOpt (h : p.StandsIn a) (hr : readOpt p = .ok none q) :
    ∃ b : Spot, b.text = a.text ∧ q.StandsIn b ∧ SpellsAll p.setting true outermost a [] b ∧
      b.ahead = [] := by
  have hrun := ends_run h
  rw [readOpt] at hr
  split at hr
  · cases hr
  · split at hr
    · cases hr
    · rename_i out s hform hs
      cases hr
      obtain ⟨hframe, b, hb, htext, hout⟩ := hrun.of_ok hs
      cases out with
      | form f => exact absurd rfl (hform f)
      | endOfInput => exact ⟨b, htext, ⟨hframe, hb⟩, hout⟩
      | closed =>
        obtain ⟨c, r, hcloser, -⟩ := hout
        cases hcloser
    · cases hr

theorem setting_of_readOpt {out : Option Form} (hr : readOpt p = .ok out q) :
    q.setting = p.setting := by
  have hframe : p.SameFrame q := by
    have h := sameFrame_readOpt p
    rwa [hr] at h
  rw [setting, setting, hframe.options_eq, hframe.host_eq]

theorem standsInText_read (h : p.StandsIn a) : StandsInText a (stateOf (read p)) := by
  have hopt := standsInText_readOpt h
  rw [read_eq]
  rcases hr : readOpt p with ⟨- | f, q⟩ | ⟨e, q⟩ <;> rw [hr] at hopt
  · cases hend : q.options.atEnd <;> simp only [hend] <;> exact hopt
  · exact hopt
  · exact hopt

theorem standsInText_readAll (h : p.StandsIn a) : StandsInText a (stateOf (readAll p)) := by
  have hopt := standsInText_readOpt h
  fun_induction readAll p generalizing a with
  | case1 p f p₁ hr fs p₂ hrest ih =>
    rw [hr] at hopt
    obtain ⟨b, htext, hb⟩ := hopt
    have ih := ih hb (standsInText_readOpt hb)
    rw [hrest] at ih
    exact ih.of_text_eq htext
  | case2 p f p₁ hr e p₂ hrest ih =>
    rw [hr] at hopt
    obtain ⟨b, htext, hb⟩ := hopt
    have ih := ih hb (standsInText_readOpt hb)
    rw [hrest] at ih
    exact ih.of_text_eq htext
  | case3 p p₁ hr => rwa [hr] at hopt
  | case4 p e p₁ hr => rwa [hr] at hopt

/-- All forms up to the end of input are spelled, one after the other. -/
theorem exists_spellsAll_of_readAll {es : List Form} (h : p.StandsIn a)
    (hr : readAll p = .ok es q) :
    ∃ b : Spot, b.text = a.text ∧ q.StandsIn b ∧ SpellsAll p.setting true outermost a es b ∧
      b.ahead = [] := by
  fun_induction readAll p generalizing a es with
  | case1 p f p₁ hf fs p₂ hrest ih =>
    cases hr
    obtain ⟨b, htext, hb, hspells⟩ := exists_spellsNext_of_readOpt h hf
    obtain ⟨d, htext', hd, hall, hnil⟩ := ih hb hrest
    rw [setting_of_readOpt hf] at hall
    exact ⟨d, htext'.trans htext, hd, hspells.cons hall, hnil⟩
  | case2 => cases hr
  | case3 p p₁ hnone =>
    cases hr
    exact exists_spellsAll_of_readOpt h hnone
  | case4 => cases hr

theorem standsInText_finish (h : p.StandsIn a) : StandsInText a (stateOf (finish p)) := by
  rw [finish]
  rcases Cursor.nextForm_of_standsAt h.2 with
    ⟨c, l, r, b, hl, hblanks, hc, hb, -⟩ | ⟨l, b, hl, hblanks, hb, -⟩
  · rw [hl]
    exact ⟨b, hc.text_eq.trans hblanks.text_eq, h.1, hb⟩
  · rw [hl]
    exact ⟨b, hblanks.text_eq, h.1, hb⟩

/-- So does every other call. -/
theorem standsInText_call (r : Request) (h : p.StandsIn a) :
    StandsInText a (stateOf (call r p)) := by
  cases r with
  | read =>
    rw [call, stateOf_map]
    exact standsInText_read h
  | readOpt => exact standsInText_readOpt h
  | readToEnd =>
    have hall : stateOf (readToEnd p) = stateOf (readAll p) := stateOf_map _ _ _
    rw [call, stateOf_map, hall]
    exact standsInText_readAll h
  | finish =>
    rw [call, stateOf_map]
    exact standsInText_finish h

/-- By induction on the list of calls, a session never leaves its text. -/
theorem standsInText_after (rs : List Request) (h : p.StandsIn a) :
    StandsInText a (p.after rs) := by
  induction rs generalizing p a with
  | nil => exact h.inText
  | cons r rs ih =>
    obtain ⟨b, htext, hb⟩ := standsInText_call r h
    exact (ih hb).of_text_eq htext

theorem setting_after (p : Session) (rs : List Request) : (p.after rs).setting = p.setting := by
  have hframe := sameFrame_after p rs
  rw [setting, setting, hframe.options_eq, hframe.host_eq]

/-- **A session keeps its place.** After any calls on a session that reads a text, characters have
only ever been handed back right after they were delivered; what has been delivered and what is left
make up the text; and the position is that of the character delivered last. Forms that are read next
are spelled by the characters that reading them delivers, so that the positions that they record are
those of their parentheses and carets. -/
theorem after_keeps_place (text : String) (options : Options) (host : Host) (rs : List Request) :
    let p := (ofCursor (.ofText text) options host).after rs
    let k := p.state.cursor
    k.orderly = true ∧ k.passed.reverse.map .ok ++ k.pending = text.toList.map .ok ∧
      p.position = some ⟨1 + k.passed.count '\n', (k.passed.takeWhile (· != '\n')).length⟩ ∧
      (∀ f q, readOpt p = .ok (some f) q → ∃ here there : Spot, k.StandsAt here ∧
        q.state.cursor.StandsAt there ∧ here.text = text.toList ∧ there.text = text.toList ∧
          SpellsNext ⟨options, host⟩ true outermost here f there) ∧
      (∀ f q, readToEnd p = .ok f q → ∃ (here there : Spot) (es : List Form), k.StandsAt here ∧
        q.state.cursor.StandsAt there ∧ here.text = text.toList ∧ there.text = text.toList ∧
          f = .file es ∧ SpellsAll ⟨options, host⟩ true outermost here es there ∧
            there.ahead = []) ∧
      (Setting.KeepsPlaces ⟨options, host⟩ text.toList →
        (∀ f q, readOpt p = .ok (some f) q → f.AllPlaced text.toList) ∧
          ∀ f q, readToEnd p = .ok f q → f.AllPlaced text.toList) := by
  intro p k
  have hsetting : p.setting = ⟨options, host⟩ := setting_after _ rs
  -- All that is claimed follows from the spot of the text where the session stands.
  obtain ⟨here, htext, hp⟩ := standsInText_after rs (standsIn_ofText text options host)
  have htext : here.text = text.toList := htext
  have hnext (f : Form) (q : Session) (h : readOpt p = .ok (some f) q) :
      ∃ there : Spot, there.text = text.toList ∧ q.state.cursor.StandsAt there ∧
        SpellsNext ⟨options, host⟩ true outermost here f there := by
    obtain ⟨there, hthere, hq, hf⟩ := exists_spellsNext_of_readOpt hp h
    rw [hsetting] at hf
    exact ⟨there, hthere.trans htext, hq.2, hf⟩
  have hfile (f : Form) (q : Session) (h : readToEnd p = .ok f q) :
      ∃ (there : Spot) (es : List Form), there.text = text.toList ∧ q.state.cursor.StandsAt there ∧
        f = .file es ∧
          SpellsAll ⟨options, host⟩ true outermost here es there ∧ there.ahead = [] := by
    obtain ⟨es, hes, rfl⟩ := map_eq_ok.1 h
    obtain ⟨there, hthere, hq, hall, hnil⟩ := exists_spellsAll_of_readAll hp hes
    rw [hsetting] at hall
    exact ⟨there, es, hthere.trans htext, hq.2, rfl, hall, hnil⟩
  refine ⟨hp.2.orderly, ?_, ?_, fun f q h => ?_, fun f q h => ?_, fun hkeeps => ⟨?_, ?_⟩⟩
  · rw [hp.2.passed_eq, hp.2.pending_eq, ← htext, Spot.text, List.map_append]
  · rw [position, hp.2.position_eq, Spot.position_eq, hp.2.passed_eq]
  · obtain ⟨there, hthere, hq, hf⟩ := hnext f q h
    exact ⟨here, there, hp.2, hq, htext, hthere, hf⟩
  · obtain ⟨there, es, hthere, hq, hes, hall, hnil⟩ := hfile f q h
    exact ⟨here, there, es, hp.2, hq, htext, hthere, hes, hall, hnil⟩
  · intro f q h
    obtain ⟨_, -, -, hf⟩ := hnext f q h
    exact hf.allPlaced hkeeps htext
  · intro f q h
    obtain ⟨_, es, -, -, rfl, hall, -⟩ := hfile f q h
    exact Form.allPlaced_group trivial (hall.allPlaced hkeeps htext)

/-- After a call that failed at a bracket, a list on the second line. -/
theorem exists_after_keeps_place :
    ∃ f q, readOpt ((ofCursor (.ofText "]\n#(b)") .standard (.standard .lenient)).after [.read]) =
        .ok (some f) q ∧
      f.AllPlaced "]\n#(b)".toList ∧
      ∃ here there : Spot, here.text = "]\n#(b)".toList ∧ there.text = "]\n#(b)".toList ∧
        SpellsNext (.standard .lenient .standard) true outermost here f there := by
  obtain ⟨f, q, h⟩ : ∃ f q,
      readOpt ((ofCursor (.ofText "]\n#(b)") .standard (.standard .lenient)).after [.read]) =
        .ok (some f) q :=
    exists_of_gives_isSome (by decide +kernel)
  obtain ⟨-, -, -, hnext, -, hplaced⟩ :=
    after_keeps_place "]\n#(b)" .standard (.standard .lenient) [.read]
  obtain ⟨here, there, -, -, hhere, hthere, hf⟩ := hnext f q h
  have hf' := (hplaced (Setting.keepsPlaces_standard _ _)).1 f q h
  exact ⟨f, q, h, hf', here, there, hhere, hthere, hf⟩

end FormTree.Session
