import FormTree.Proofs.Source.Blind
import FormTree.Proofs.Source.Deliver

/-!
# Cursors in a text

A **spot** is a place in a text: what stands before it and what stands after it. A cursor **stands
at** a spot if what it has delivered and what it has left are these two, the position that it counts
is that of the spot, and no character was ever handed back out of turn. Delivering a character moves
a cursor to the next spot and handing it back moves it back, so that whatever is composed of these
keeps to the text: no character is lost, and none is delivered twice.
-/

namespace FormTree

/-- A place in a text. -/
@[ext] structure Spot where
  /-- what stands before it, the last character first -/
  passed : List Char
  /-- what stands after it -/
  ahead : List Char

namespace Spot

/-- The text. -/
def text (p : Spot) : List Char := p.passed.reverse ++ p.ahead

/-- The position of the last character before the place. -/
def position (p : Spot) : Position := Position.start.after p.passed.reverse

/-- Whether `cs` is what stands between two places. -/
def Takes (p : Spot) (cs : List Char) (q : Spot) : Prop :=
  p.ahead = cs ++ q.ahead ∧ q.passed = cs.reverse ++ p.passed

/-- The place at the beginning of a text. -/
def ofText (text : String) : Spot := ⟨[], text.toList⟩

variable {p q r : Spot} {cs ds : List Char} {c : Char}

theorem Takes.refl (p : Spot) : p.Takes [] p := ⟨rfl, rfl⟩

/-- Characters that are passed one after the other are passed together. -/
theorem Takes.trans (h : p.Takes cs q) (h' : q.Takes ds r) : p.Takes (cs ++ ds) r := by
  refine ⟨?_, ?_⟩
  · rw [h.1, h'.1, List.append_assoc]
  · rw [h'.2, h.2, List.reverse_append, List.append_assoc]

/-- Two places with something between them are places in one text. -/
theorem Takes.text_eq (h : p.Takes cs q) : q.text = p.text := by
  rw [text, text, h.1, h.2, List.reverse_append, List.reverse_reverse, List.append_assoc]

theorem Takes.cons (h : p.Takes [c] q) (h' : q.Takes ds r) : p.Takes (c :: ds) r := h.trans h'

/-- Where two stretches of text follow one another there is a place between them. -/
theorem Takes.exists_of_append (h : p.Takes (cs ++ ds) r) : ∃ q, p.Takes cs q ∧ q.Takes ds r := by
  refine ⟨⟨cs.reverse ++ p.passed, ds ++ r.ahead⟩, ⟨?_, rfl⟩, rfl, ?_⟩
  · rw [h.1, List.append_assoc]
  · rw [h.2, List.reverse_append, List.append_assoc]

/-- Passing several characters is passing the first one and then the others. -/
theorem Takes.exists_of_cons (h : p.Takes (c :: ds) r) : ∃ q, p.Takes [c] q ∧ q.Takes ds r := by
  have happend : p.Takes ([c] ++ ds) r := h
  exact happend.exists_of_append

/-- The place after the next character. -/
theorem takes_of_ahead (h : p.ahead = c :: ds) : p.Takes [c] ⟨c :: p.passed, ds⟩ := ⟨h, rfl⟩

/-- The first character ahead can be passed. -/
theorem exists_takes_of_head? (h : p.ahead.head? = some c) : ∃ q, p.Takes [c] q := by
  obtain ⟨rest, hahead⟩ := List.head?_eq_some_iff.1 h
  exact ⟨_, takes_of_ahead hahead⟩

/-- The place after the next characters. -/
theorem exists_takes (h : p.ahead = cs ++ ds) : ∃ q, p.Takes cs q ∧ q.ahead = ds :=
  ⟨⟨cs.reverse ++ p.passed, ds⟩, ⟨h, rfl⟩, rfl⟩

/-- What stands between two places determines the second one. -/
theorem Takes.unique (h : p.Takes cs q) (h' : p.Takes cs r) : q = r := by
  obtain ⟨ahead, passed⟩ := h
  obtain ⟨ahead', passed'⟩ := h'
  exact Spot.ext (passed.trans passed'.symm) (List.append_cancel_left (ahead.symm.trans ahead'))

/-- Of two places in one text what is after the one tells whether it is the other. -/
theorem eq_of_ahead_eq (htext : p.text = q.text) (hahead : p.ahead = q.ahead) : p = q := by
  have hpassed : p.passed.reverse = q.passed.reverse := by
    rw [text, text, hahead] at htext
    exact List.append_cancel_right htext
  exact Spot.ext (List.reverse_inj.1 hpassed) hahead

/-- Stepping past a character moves the position by that character. -/
theorem Takes.position_eq (h : p.Takes [c] q) : q.position = p.position.step c := by
  rw [position, position, h.2]
  simp [Position.after]

/-- The line of a position is one more than the number of line feeds before it, and its column is
the number of characters after the last of them. -/
theorem position_eq (p : Spot) :
    p.position = ⟨1 + p.passed.count '\n', (p.passed.takeWhile (· != '\n')).length⟩ := by
  obtain ⟨passed, ahead⟩ := p
  -- what is passed is in reverse, so the induction takes the last character off
  induction passed with
  | nil => rfl
  | cons c rest ih =>
    have hstep : Spot.position ⟨c :: rest, ahead⟩ = (Spot.position ⟨rest, ahead⟩).step c := by
      simp [position, Position.after]
    rw [hstep, ih, Position.step]
    by_cases hc : c = '\n'
    · subst hc
      simp [Nat.add_assoc]
    · simp [hc]

end Spot

namespace Cursor

/-- Whether a cursor stands at a spot. -/
structure StandsAt (k : Cursor) (p : Spot) : Prop where
  pending_eq : k.pending = p.ahead.map .ok
  passed_eq : k.passed = p.passed
  place_eq : k.place = p.position
  /-- the column before a line feed that may be handed back -/
  lastColumn_eq : k.held = none → ∀ rest, p.passed = '\n' :: rest →
    k.lastColumn = (Position.start.after rest.reverse).column
  orderly : k.orderly = true
  tracked : k.tracked = true

variable {k l : Cursor} {p q : Spot} {c : Char}

theorem standsAt_ofText (text : String) : (ofText text).StandsAt (.ofText text) where
  pending_eq := rfl
  passed_eq := rfl
  place_eq := rfl
  lastColumn_eq _ _ h := nomatch h
  orderly := rfl
  tracked := rfl

/-- At every spot stands a cursor. -/
theorem exists_standsAt (p : Spot) : ∃ k : Cursor, k.StandsAt p := by
  refine ⟨⟨p.ahead.map .ok, none, p.position,
    (Position.start.after p.passed.tail.reverse).column, true, p.passed, true⟩,
    rfl, rfl, rfl, ?_, rfl, rfl⟩
  intro _ rest hrest
  rw [hrest]
  rfl

/-- A tracked cursor has the position of its spot. -/
theorem StandsAt.position_eq (h : k.StandsAt p) : k.position = some p.position := by
  rw [position, if_pos h.tracked, h.place_eq]

/-- A cursor stands at one spot only. -/
theorem StandsAt.unique (h : k.StandsAt p) (h' : k.StandsAt q) : p = q := by
  have hahead : p.ahead = q.ahead :=
    (List.map_inj_right fun _ _ h => Except.ok.inj h).1 (h.pending_eq.symm.trans h'.pending_eq)
  exact Spot.ext (h.passed_eq.symm.trans h'.passed_eq) hahead

/-- Cursors at one spot have the same left to deliver. -/
theorem StandsAt.alike (h : k.StandsAt p) (h' : l.StandsAt p) : k.Alike l :=
  ⟨h.pending_eq.trans h'.pending_eq.symm, h.tracked.trans h'.tracked.symm⟩

/-- Delivering a character moves the cursor past it. -/
theorem next_of_standsAt (h : k.StandsAt p) (hp : p.Takes [c] q) :
    ∃ l, next k = .ok (some c) l ∧ l.StandsAt q ∧ l.held = none := by
  have hpending : k.pending = .ok c :: q.ahead.map .ok := by rw [h.pending_eq, hp.1]; rfl
  refine ⟨k.past c (q.ahead.map .ok), ?_, ?_, rfl⟩
  · rw [next_eq, hpending]
  · refine ⟨rfl, ?_, ?_, ?_, h.orderly, h.tracked⟩
    · rw [hp.2, ← h.passed_eq]
      rfl
    · rw [hp.position_eq, ← h.place_eq]
      rfl
    · intro _ rest hrest
      have hrest : c :: p.passed = '\n' :: rest := hp.2.symm.trans hrest
      obtain ⟨rfl, rfl⟩ := List.cons.inj hrest
      have hcolumn : (k.past '\n' (q.ahead.map .ok)).lastColumn = k.place.column := rfl
      rw [hcolumn, h.place_eq]
      rfl

theorem next_of_standsAt_nil (h : k.StandsAt p) (hp : p.ahead = []) : next k = .ok none k :=
  next_of_at_nil (by rw [At, h.pending_eq, hp])

/-- Handing the character delivered last back moves the cursor back before it. -/
theorem StandsAt.handBack (h : k.StandsAt q) (hk : k.held = none) (hp : p.Takes [c] q) :
    (k.handBack c).StandsAt p where
  pending_eq := by
    rw [pending_handBack hk, h.pending_eq, hp.1]
    rfl
  passed_eq := by
    have htail : (k.handBack c).passed = k.passed.tail := rfl
    rw [htail, h.passed_eq, hp.2]
    rfl
  place_eq := by
    have hplace : (k.handBack c).place =
        if c == '\n' then ⟨k.place.line - 1, k.lastColumn⟩
        else ⟨k.place.line, k.place.column - 1⟩ := rfl
    rw [hplace, h.place_eq, hp.position_eq, Position.step]
    by_cases hc : c = '\n'
    · subst hc
      have hcolumn := h.lastColumn_eq hk p.passed hp.2
      simp only [beq_self_eq_true, if_true, hcolumn, Nat.add_sub_cancel]
      rfl
    · simp [hc]
  lastColumn_eq hheld := nomatch hheld
  orderly := by
    have horderly : (k.handBack c).orderly =
        (k.orderly && k.held.isNone && k.passed.head? == some c) := rfl
    rw [horderly, h.orderly, hk, h.passed_eq, hp.2]
    simp
  tracked := h.tracked

end Cursor

end FormTree
