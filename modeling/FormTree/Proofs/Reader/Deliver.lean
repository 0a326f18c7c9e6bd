import FormTree.Proofs.Reader.Yields
import FormTree.Proofs.Source.Quoted

/-!
# Reading a text that is left to deliver

A state stands in a frame at what is left to deliver. Scanning moves it on as it moves the cursor; a
level further down, and inside of a scope, it stands in another frame, and afterwards in its own one
again. A comment passes over the break that ends it, so that a state may also stand right behind the
first line break of what is said to be left.
-/

namespace FormTree

open Cursor

namespace State

/-- Whether a state stands in a frame with these characters left to deliver. -/
def At (s : State) (F : Frame) (cs : List Char) : Prop := s.frame = F ∧ s.cursor.At cs

/-- Whether, besides, no character is held. -/
def Past (s : State) (F : Frame) (cs : List Char) : Prop := s.frame = F ∧ s.cursor.Past cs

/-- Whether these characters are left, but for a line break before them. -/
def Before (s : State) (F : Frame) (cs : List Char) : Prop :=
  ∃ rest, (cs = rest ∨ cs = '\n' :: rest) ∧ s.At F rest

variable {s : State} {F : Frame} {cs : List Char}

/-- A cursor that has just passed a character is where the rest begins. -/
theorem Past.at (h : s.Past F cs) : s.At F cs := ⟨h.1, h.2.1⟩

/-- Where a text begins there are no blanks before it. -/
theorem At.before (h : s.At F cs) : s.Before F cs := ⟨cs, .inl rfl, h⟩

theorem Past.before (h : s.Past F cs) : s.Before F cs := h.at.before

end State

namespace Read

variable {α β : Type} {total : Bool} {F : Frame} {cs rest : List Char}

/-- Scanning leaves everything but the cursor as it was. -/
theorem triple_scan_of {m : Scan α} {Q : α → Cursor → Prop}
    (hm : Triple total (Cursor.At · cs) m Q) :
    Triple total (State.At · F cs) (scan m) fun a s => s.frame = F ∧ Q a s.cursor := by
  intro s hs
  have h := hm s.cursor hs.2
  rw [scan]
  rcases hmk : m s.cursor with ⟨b, k⟩ | ⟨e, k⟩
  · rw [hmk] at h
    exact ⟨hs.1, h⟩
  · rw [hmk] at h
    exact h

theorem triple_scan {m : Scan α} {a : α}
    (hm : Triple total (Cursor.At · cs) m fun b k => b = a ∧ k.At rest) :
    Triple total (State.At · F cs) (scan m) fun b s => b = a ∧ s.At F rest :=
  (triple_scan_of hm).mono (fun _ hs => hs) fun _ _ hs => ⟨hs.2.1, hs.1, hs.2.2⟩

/-- The next character of a text is its first one. -/
theorem triple_next (c : Char) :
    Triple total (State.At · F (c :: cs)) (scan next) fun b s => b = some c ∧ s.Past F cs := by
  refine .of_ok fun s hs => ?_
  obtain ⟨k, hk, hpast⟩ := next_of_at_cons hs.2
  exact ⟨some c, { s with cursor := k }, scan_eq_ok.2 ⟨k, hk, rfl⟩, rfl, hs.1, hpast⟩

theorem triple_next_nil :
    Triple total (State.At · F []) (scan next) fun b s => b = none ∧ s.At F [] := by
  refine .of_ok fun s hs => ?_
  exact ⟨none, { s with cursor := s.cursor }, scan_eq_ok.2 ⟨_, next_of_at_nil hs.2, rfl⟩, rfl, hs⟩

theorem triple_nextCharacter (c : Char) :
    Triple total (State.At · F (c :: cs)) nextCharacter fun b s => b = c ∧ s.Past F cs :=
  .bind_eq (triple_next c) (.pure fun _ hs => ⟨rfl, hs⟩)

/-- A character that was just read is put back. -/
theorem triple_unread (c : Char) :
    Triple total (State.Past · F cs) (scan (unread c)) fun _ s => s.At F (c :: cs) :=
  .of_ok fun s hs => ⟨(), { s with cursor := s.cursor.handBack c }, rfl, hs.1, hs.2.handBack c⟩

/-- Blanks before the first character of a form are passed over. -/
theorem triple_nextForm {c : Char} {ws : List Char} (hws : ws.all Text.isBlank = true)
    (hc : Text.isBlank c = false) :
    Triple total (State.Before · F (ws ++ c :: cs)) (scan nextForm) fun b s =>
      b = some c ∧ s.Past F cs := by
  refine .of_ok fun s hs => ?_
  obtain ⟨left, hleft, hframe, hat⟩ := hs
  have hblanks : ∃ ws : List Char, ws.all Text.isBlank = true ∧ left = ws ++ c :: cs := by
    rcases hleft with rfl | hleft
    · exact ⟨ws, hws, rfl⟩
    · rcases ws with - | ⟨w, ws⟩
      · cases hleft
        exact absurd hc (by decide)
      · cases hleft
        exact ⟨ws, (Bool.and_eq_true_iff.1 hws).2, rfl⟩
  obtain ⟨ws, hws, rfl⟩ := hblanks
  obtain ⟨k, hk, hpast⟩ := nextForm_of_at hc hws hat
  exact ⟨some c, { s with cursor := k }, scan_eq_ok.2 ⟨k, hk, rfl⟩, rfl, hframe, hpast⟩

/-- What is not blank is the first character of a form. -/
theorem triple_nextForm_cons {c : Char} (hc : Text.isBlank c = false) :
    Triple total (State.At · F (c :: cs)) (scan nextForm) fun b s => b = some c ∧ s.Past F cs := by
  have hform : Triple total (State.Before · F ([] ++ c :: cs)) (scan nextForm) _ :=
    triple_nextForm rfl hc
  exact hform.pre fun _ hs => hs.before

/-- Where only blanks are left the end is found. -/
theorem triple_nextForm_blanks {ws : List Char} (hws : ws.all Text.isBlank = true) :
    Triple total (State.Before · F ws) (scan nextForm) fun b s => b = none ∧ s.At F [] := by
  refine .of_ok fun s hs => ?_
  obtain ⟨left, hleft, hframe, hat⟩ := hs
  have hblanks : left.all Text.isBlank = true := by
    rcases hleft with rfl | rfl
    · exact hws
    · exact (Bool.and_eq_true_iff.1 hws).2
  obtain ⟨k, hk, hat⟩ := nextForm_of_at_blanks hblanks hat
  exact ⟨none, { s with cursor := k }, scan_eq_ok.2 ⟨k, hk, rfl⟩, rfl, hframe, hat⟩

theorem triple_position {P : State → Prop} : Triple total P position fun _ s => P s :=
  fun _ hs => hs

/-- The scopes of a state are those that its frame tells. -/
theorem triple_scopes {P : State → Prop} (hP : ∀ s, P s → s.frame = F) :
    Triple total P scopes fun scopes s => scopes.inConditional = F.inConditional ∧ P s := by
  intro s hs
  exact ⟨hP s hs ▸ rfl, hs⟩

section

variable {P P' : State → Prop} {Q Q' : α → State → Prop} {m : Read α}

/-- What changes the state that a run leaves changes what is known of it. -/
theorem post_mapState {f : State → State} {r : EStateM.Result Cause State α}
    (hr : Post total Q r) (hQ : ∀ a s, Q a s → Q' a (f s)) : Post total Q' (mapState f r) := by
  rcases r with ⟨a, s⟩ | ⟨e, s⟩
  · exact hQ a s hr
  · exact hr

/-- One level further down the budget is smaller by one. -/
theorem triple_descend (hm : Triple total P m Q)
    (hP : ∀ s, P' s → s.remaining ≠ 0 ∧ P { s with remaining := s.remaining - 1 })
    (hQ : ∀ a s, Q a s → Q' a { s with remaining := s.remaining + 1 }) :
    Triple total P' (descend m) Q' := by
  intro s hs
  obtain ⟨hpos, hs⟩ := hP s hs
  rw [descend, if_neg hpos]
  exact post_mapState (hm _ hs) hQ

/-- A run inside of a scope is one from the state with the scope entered, to a state with it
left. -/
theorem triple_within {scope : Scope} (hm : Triple total P m Q)
    (hP : ∀ s, P' s → P { s with scopes := s.scopes.enter scope })
    (hQ : ∀ a s, Q a s → Q' a { s with scopes := s.scopes.leave scope }) :
    Triple total P' (within scope m) Q' :=
  fun s hs => post_mapState (hm _ (hP s hs)) hQ

end

end Read

/-! ### Frames -/

namespace State

variable {s : State} {F : Frame} {cs : List Char}

/-- There is a level left below a frame that is above another one. -/
theorem ne_zero_of_frame_up (h : s.frame = F.up) : s.remaining ≠ 0 := by
  obtain ⟨-, -, hremaining⟩ := frame_eq_iff.1 h
  rw [hremaining]
  exact Nat.succ_ne_zero _

/-- A level further down there is one level less to go. -/
theorem frame_down (h : s.frame = F.up) :
    State.frame { s with remaining := s.remaining - 1 } = F := by
  obtain ⟨hfunction, hconditionals, hremaining⟩ := frame_eq_iff.1 h
  refine frame_eq_iff.2 ⟨hfunction, hconditionals, ?_⟩
  dsimp only
  rw [hremaining]
  rfl

/-- A level further up there is one level more to go. -/
theorem frame_up (h : s.frame = F) :
    State.frame { s with remaining := s.remaining + 1 } = F.up := by
  rw [← h]
  rfl

theorem Before.down (h : s.Before F.up cs) :
    State.Before { s with remaining := s.remaining - 1 } F cs := by
  obtain ⟨rest, hrest, hframe, hat⟩ := h
  exact ⟨rest, hrest, frame_down hframe, hat⟩

theorem At.up (h : s.At F cs) : State.At { s with remaining := s.remaining + 1 } F.up cs :=
  ⟨frame_up h.1, h.2⟩

theorem Before.up (h : s.Before F cs) :
    State.Before { s with remaining := s.remaining + 1 } F.up cs := by
  obtain ⟨rest, hrest, hat⟩ := h
  exact ⟨rest, hrest, hat.up⟩

theorem Before.ne_zero (h : s.Before F.up cs) : s.remaining ≠ 0 := by
  obtain ⟨rest, -, hframe, -⟩ := h
  exact ne_zero_of_frame_up hframe

end State

end FormTree
