import FormTree.Proofs.Reader.Complete
import FormTree.Proofs.Session.Place
import FormTree.Proofs.Session.RoundTrip

/-!
# Calls read what is spelled

A call on a session with the default host gives the forms that are spelled where the session stands.
With what is known of the place that a call leaves, this makes the grammar an exact description of
what can be read.
-/

namespace FormTree.Session

variable {regex : RegexEngine} {options : Options} {p q : Session} {a b : Spot}
  {f : Form} {es : List Form}

/-- The form that is spelled next is read. -/
theorem exists_readOpt_of_readsNext (hp : p.Stands regex options) (ha : p.StandsIn a)
    (h : ReadsNext regex options outermost a f b) :
    ∃ g q, readOpt p = .ok (some g) q ∧ g.core = f.core ∧ q.Stands regex options ∧
      q.StandsIn b := by
  obtain ⟨_, s, hs, g, rfl, hcore, hb⟩ := (h none Level.awaits_none).exists_ok ha
  rw [readOpt_of_stands hp, hs]
  exact ⟨g, _, rfl, hcore, ⟨hp.1, hp.2.1, hb.1⟩, hb⟩

/-- Where nothing but trivia is spelled, and it is skipped, nothing is read. -/
theorem exists_readOpt_of_readsEnd (hp : p.Stands regex options) (ha : p.StandsIn a)
    (h : ReadsEnd regex options outermost a b) (hend : b.ahead = []) :
    ∃ q, readOpt p = .ok none q := by
  obtain ⟨_, s, hs, rfl, -⟩ := (h.2 hend).exists_ok ha
  rw [readOpt_of_stands hp, hs]
  exact ⟨_, rfl⟩

/-- The forms that are spelled up to the end of the text are read. -/
theorem exists_readAll_of_readsAll (hp : p.Stands regex options) (ha : p.StandsIn a)
    (h : ReadsAll regex options outermost a es b) (hend : b.ahead = []) :
    ∃ gs q, readAll p = .ok gs q ∧ Form.coreAll gs = Form.coreAll es := by
  induction es generalizing p a with
  | nil =>
    obtain ⟨q, hq⟩ := exists_readOpt_of_readsEnd hp ha h hend
    refine ⟨[], q, ?_, rfl⟩
    rw [readAll_eq, bind_apply, hq]
    rfl
  | cons f es ih =>
    obtain ⟨d, hf, hes⟩ := h
    obtain ⟨g, q, hq, hcore, hstands, hd⟩ := exists_readOpt_of_readsNext hp ha hf
    obtain ⟨gs, t, ht, hcoreAll⟩ := ih hstands hd hes
    refine ⟨g :: gs, t, ?_, congrArg₂ List.cons hcore hcoreAll⟩
    rw [readAll_eq, bind_apply, hq]
    exact (map_apply _ _ _).trans (by rw [ht])

/-- A text that spells forms up to its end is read as a file. -/
theorem exists_readToEnd_of_spellsAll {text : String} {loose : Bool}
    (h : SpellsAll (.standard regex options) loose outermost (.ofText text) es b)
    (hend : b.ahead = []) :
    ∃ g q, readToEnd (ofText regex text options) = .ok g q ∧ g.core = (Form.file es).core := by
  obtain ⟨gs, q, hgs, hcore⟩ := exists_readAll_of_readsAll (stands_ofText regex text options)
    (standsIn_ofText text options (.standard regex)) h.readsAll hend
  exact ⟨.file gs, q, readToEnd_eq_ok.2 ⟨gs, rfl, hgs⟩, congrArg (Form.group .file) hcore⟩

/-- A text that is read as a file spells the forms in it up to its end. -/
theorem exists_spellsAll_of_readToEnd {text : String}
    (h : readToEnd (ofText regex text options) = .ok f q) :
    ∃ es b, f = .file es ∧ SpellsAll (.standard regex options) true outermost (.ofText text) es b ∧
      b.ahead = [] := by
  obtain ⟨es, rfl, hes⟩ := readToEnd_eq_ok.1 h
  obtain ⟨b, -, -, hall, hend⟩ :=
    exists_spellsAll_of_readAll (standsIn_ofText text options (.standard regex)) hes
  exact ⟨es, b, rfl, hall, hend⟩

/-! ### One form in a text -/

/-- At the end of a text a session is done. -/
theorem exists_finish (ha : p.state.cursor.StandsAt a) (hend : a.ahead = []) :
    ∃ q, finish p = .ok () q := by
  rw [finish]
  rcases Cursor.nextForm_of_standsAt ha with ⟨c, l, r, b, -, ⟨ws, hws, -⟩, hc, -⟩ | ⟨l, b, hl, -⟩
  · rw [hws.1, hc.1] at hend
    exact absurd hend (by simp)
  · rw [hl]
    exact ⟨_, rfl⟩

/-- A form that is read, with nothing behind it, is the only one. -/
theorem readOnly_of_readOpt {r : Session} (h : readOpt p = .ok (some f) r)
    (hfinish : finish r = .ok () q) : readOnly p = .ok f q :=
  bind_eq_ok.2 ⟨f, r, bind_eq_ok.2 ⟨some f, r, h, rfl⟩, bind_eq_ok.2 ⟨(), q, hfinish, rfl⟩⟩

/-- A form that is spelled by all of a text is read on its own. -/
theorem exists_readOnly_of_spellsNext {text : String}
    (h : SpellsNext (.standard regex options) true outermost (.ofText text) f b)
    (hend : b.ahead = []) :
    ∃ g q, readOnly (ofText regex text options) = .ok g q ∧ g.core = f.core ∧
      Legal regex options outermost g := by
  have hstands := stands_ofText regex text options
  obtain ⟨g, q, hg, hcore, -, hb⟩ := exists_readOpt_of_readsNext hstands
    (standsIn_ofText text options (.standard regex)) h.readsNext
  obtain ⟨r, hr⟩ := exists_finish hb.2 hend
  exact ⟨g, r, readOnly_of_readOpt hg hr, hcore, (legal_of_readOpt hstands hg).1⟩

end FormTree.Session
