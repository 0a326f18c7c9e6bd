import FormTree.Proofs.Reader.Grammar
import FormTree.Proofs.Reader.Deliver

/-!
# Reading functions in a text

A reading function **parses** at a spot if every run that begins there in some frame ends in the
same text, and if it succeeds, in the same frame and with a value that is related to the spot where
it ends. Composed functions parse what their parts parse one after the other. What begins with a
character already delivered is described from the spot before that character, so that it may hand
the character back.
-/

namespace FormTree

open Cursor

variable {α β : Type}

/-- Whether a run that began at a spot in a frame ended in that text, and if it succeeded, in that
frame and in `Q`. -/
def Ends (F : Frame) (p : Spot) (Q : α → Spot → Prop) : EStateM.Result Cause State α → Prop
  | .ok a t => t.frame = F ∧ ∃ q, t.cursor.StandsAt q ∧ q.text = p.text ∧ Q a q
  | .error _ t => ∃ q, t.cursor.StandsAt q ∧ q.text = p.text

/-- Whether all runs that begin at a spot in a frame end so. -/
def Parses (F : Frame) (p : Spot) (m : Read α) (Q : α → Spot → Prop) : Prop :=
  ∀ s, s.frame = F → s.cursor.StandsAt p → Ends F p Q (m s)

/-- Whether all runs do that begin right after the character `c` was delivered at the spot. -/
def ParsesAfter (c : Char) (F : Frame) (p : Spot) (m : Read α) (Q : α → Spot → Prop) : Prop :=
  ∀ s q, p.Takes [c] q → s.frame = F → s.cursor.StandsAt q → s.cursor.held = none →
    Ends F p Q (m s)

section

variable {F : Frame} {p q : Spot} {c : Char} {cs : List Char} {m : Read α} {Q : α → Spot → Prop}
  {R : β → Spot → Prop}

/-- A result stays one for a weaker relation. -/
theorem Ends.mono {Q' : α → Spot → Prop} {r : EStateM.Result Cause State α} (h : Ends F p Q r)
    (hQ : ∀ a q, Q a q → Q' a q) : Ends F p Q' r := by
  rcases r with ⟨a, t⟩ | ⟨e, t⟩
  · obtain ⟨hframe, q, hq, htext, ha⟩ := h
    exact ⟨hframe, q, hq, htext, hQ a q ha⟩
  · exact h

/-- Only the text of a spot matters for where a run may end. -/
theorem Ends.of_text_eq {r : EStateM.Result Cause State α} (h : Ends F q Q r)
    (htext : q.text = p.text) : Ends F p Q r := by
  unfold Ends at h ⊢
  rwa [htext] at h

/-- A run that fails ends in the same text. -/
theorem Ends.of_error {r : EStateM.Result Cause State α} {e : Cause} {t : State} (h : Ends F p Q r)
    (hr : r = .error e t) : ∃ q, t.cursor.StandsAt q ∧ q.text = p.text := by
  rwa [hr] at h

/-- A run that succeeds ends in the same text and the same frame. -/
theorem Ends.of_ok {r : EStateM.Result Cause State α} {a : α} {t : State} (h : Ends F p Q r)
    (hr : r = .ok a t) :
    t.frame = F ∧ ∃ q, t.cursor.StandsAt q ∧ q.text = p.text ∧ Q a q := by
  rwa [hr] at h

/-- What changes only the frame of the state that a run leaves. -/
theorem Ends.mapState {G : Frame} {f : State → State} {r : EStateM.Result Cause State α}
    (h : Ends G p Q r) (hframe : ∀ t : State, t.frame = G → (f t).frame = F)
    (hcursor : ∀ t : State, (f t).cursor = t.cursor) : Ends F p Q (Read.mapState f r) := by
  rcases r with ⟨a, t⟩ | ⟨e, t⟩
  · obtain ⟨ht, q, hq, h⟩ := h
    exact ⟨hframe t ht, q, hcursor t ▸ hq, h⟩
  · obtain ⟨q, hq, h⟩ := h
    exact ⟨q, hcursor t ▸ hq, h⟩

namespace Parses

theorem mono {Q' : α → Spot → Prop} (hm : Parses F p m Q) (hQ : ∀ a q, Q a q → Q' a q) :
    Parses F p m Q' :=
  fun s hs hp => (hm s hs hp).mono hQ

theorem pure {a : α} (h : Q a p) : Parses F p (Pure.pure a) Q :=
  fun _ hs hp => ⟨hs, p, hp, rfl, h⟩

theorem throw (e : Cause) : Parses F p (MonadExcept.throw e : Read α) Q :=
  fun _ _ hp => ⟨p, hp, rfl⟩

/-- Composition: what follows parses at the spot where the first step ended. -/
theorem bind {f : α → Read β} (hm : Parses F p m Q) (hf : ∀ a q, Q a q → Parses F q (f a) R) :
    Parses F p (m >>= f) R := by
  intro s hs hp
  have h := hm s hs hp
  rw [bind_apply]
  rcases hms : m s with ⟨a, t⟩ | ⟨e, t⟩
  · obtain ⟨hframe, q, hq, htext, ha⟩ := h.of_ok hms
    exact (hf a q ha t hframe hq).of_text_eq htext
  · exact h.of_error hms

theorem ite {c : Prop} [Decidable c] {n : Read α} (hm : c → Parses F p m Q)
    (hn : ¬ c → Parses F p n Q) : Parses F p (if c then m else n) Q := by
  by_cases hc : c
  · rw [if_pos hc]
    exact hm hc
  · rw [if_neg hc]
    exact hn hc

theorem ofExcept {x : Except Cause α} :
    Parses F p (MonadExcept.ofExcept x) fun a q => q = p ∧ x = .ok a := by
  rcases x with e | a
  · exact throw e
  · exact pure ⟨rfl, rfl⟩

/-- What scanning takes and gives is what it takes and gives at the spot. -/
theorem scan {m : Scan α} (hm : Scan.Keeps m) : Parses F p (Read.scan m) (Scan.Gives m p) := by
  intro s hs hp
  rw [Read.scan]
  rcases hms : m s.cursor with ⟨a, k⟩ | ⟨e, k⟩
  · obtain ⟨q, hk, hgives⟩ := Scan.Gives.of_eq_ok hm hp hms
    obtain ⟨cs, hcs⟩ := hgives.1
    exact ⟨hs, q, hk, hcs.text_eq, hgives⟩
  · obtain ⟨cs, q, hcs, hk⟩ := hm s.cursor p hp
    rw [hms] at hk
    exact ⟨q, hk, hcs.text_eq⟩

/-- The position of a state is that of its spot. -/
theorem position :
    Parses F p Read.position fun position q => q = p ∧ position = some p.position :=
  fun _ hs hp => ⟨hs, p, hp, rfl, rfl, hp.position_eq⟩

theorem scopes :
    Parses F p Read.scopes fun scopes q => q = p ∧ scopes.inConditional = F.inConditional ∧
      scopes.inFunction = F.inFunction := by
  intro s hs hp
  obtain ⟨hfunction, hconditionals, -⟩ := State.frame_eq_iff.1 hs
  refine ⟨hs, p, hp, rfl, rfl, ?_, hfunction⟩
  rw [Scopes.inConditional, Frame.inConditional, hconditionals]

/-- One level further down the budget is smaller by one. -/
theorem descend (hm : ∀ G : Frame, G.up = F → Parses G p m Q) :
    Parses F p (Read.descend m) Q := by
  intro s hs hp
  rw [Read.descend]
  split
  · exact ⟨p, hp, rfl⟩
  · rename_i hpos
    have hup : (State.frame { s with remaining := s.remaining - 1 }).up = F := by
      rw [← hs, State.frame, State.frame, Frame.up, Nat.sub_add_cancel (Nat.pos_of_ne_zero hpos)]
    have h := hm _ hup { s with remaining := s.remaining - 1 } rfl hp
    exact h.mapState (fun t ht => hup ▸ State.frame_up ht) fun _ => rfl

/-- Inside of a scope the frame is another one. -/
theorem within {scope : Scope} {G : Frame}
    (henter : ∀ s : State, s.frame = F →
      State.frame { s with scopes := s.scopes.enter scope } = G)
    (hleave : ∀ s : State, s.frame = G →
      State.frame { s with scopes := s.scopes.leave scope } = F)
    (hm : Parses G p m Q) : Parses F p (Read.within scope m) Q :=
  fun s hs hp => (hm _ (henter s hs) hp).mapState hleave fun _ => rfl

theorem within_backquote (hm : Parses F p m Q) : Parses F p (Read.within .backquote m) Q :=
  within (fun _ h => h) (fun _ h => h) hm

/-- Inside of a conditional a step parses with one more of them in its frame. -/
theorem within_conditional (hm : Parses { F with conditionals := F.conditionals + 1 } p m Q) :
    Parses F p (Read.within .conditional m) Q :=
  within (fun _ => State.frame_enter_conditional) (fun _ => State.frame_leave_conditional) hm

end Parses

/-- What is parsed past a character is parsed after it. -/
theorem ParsesAfter.past (hm : ∀ q, p.Takes [c] q → Parses F q m Q) : ParsesAfter c F p m Q :=
  fun s q hq hs hp _ => (hm q hq s hs hp).of_text_eq hq.text_eq

theorem ParsesAfter.bind {f : α → Read β} (hm : ParsesAfter c F p m Q)
    (hf : ∀ a q, Q a q → Parses F q (f a) R) : ParsesAfter c F p (m >>= f) R := by
  intro s q hq hs hp hheld
  have h := hm s q hq hs hp hheld
  rw [bind_apply]
  rcases hms : m s with ⟨a, t⟩ | ⟨e, t⟩
  · obtain ⟨hframe, r, hr, htext, ha⟩ := h.of_ok hms
    exact (hf a r ha t hframe hr).of_text_eq htext
  · exact h.of_error hms

/-- A function literal is not read inside of another one. -/
theorem ParsesAfter.within_function (hF : F.inFunction = false)
    (hm : ParsesAfter c { F with inFunction := true } p m Q) :
    ParsesAfter c F p (Read.within .function m) Q := by
  intro s q hq hs hp hheld
  have h := hm { s with scopes := s.scopes.enter .function } q hq (State.frame_enter_function hs) hp
    hheld
  exact h.mapState (fun _ => State.frame_leave_function hF) fun _ => rfl

/-- The character delivered last is handed back, and reading goes on before it. -/
theorem ParsesAfter.unread_bind (hm : p.ahead.head? = some c → Parses F p m Q) :
    ParsesAfter c F p (Read.scan (unread c) >>= fun _ => m) Q := by
  intro s q hq hs hp hheld
  have hhead : p.ahead.head? = some c := by rw [hq.1]; rfl
  exact hm hhead { s with cursor := s.cursor.handBack c } hs (hp.handBack hheld hq)

/-- What is done with the next character may hand that back. -/
theorem Parses.next_bind {f : Option Char → Read β} (hnone : p.ahead = [] → Parses F p (f none) R)
    (hsome : ∀ c, ParsesAfter c F p (f (some c)) R) : Parses F p (Read.scan next >>= f) R := by
  intro s hs hp
  rw [bind_apply, Read.scan]
  rcases hahead : p.ahead with - | ⟨c, rest⟩
  · rw [next_of_standsAt_nil hp hahead]
    exact hnone hahead s hs hp
  · have hq := Spot.takes_of_ahead hahead
    obtain ⟨k, hk, hstands, hheld⟩ := next_of_standsAt hp hq
    rw [hk]
    exact hsome c { s with cursor := k } _ hq hs hstands hheld

/-- A run that needs a character goes on right after it. -/
theorem Parses.nextCharacter_bind {f : Char → Read β} (hf : ∀ c, ParsesAfter c F p (f c) R) :
    Parses F p (Read.nextCharacter >>= f) R := by
  rw [Read.nextCharacter, bind_assoc]
  exact .next_bind (fun _ => .throw _) hf

end

/-! ### Blanks -/

section

variable {p q r : Spot} {c : Char} {k : Cursor}

theorem Spot.Blanks.refl (p : Spot) : p.Blanks p := ⟨[], .refl p, rfl⟩

theorem Spot.Blanks.text_eq (h : p.Blanks q) : q.text = p.text := by
  obtain ⟨ws, hws, -⟩ := h
  exact hws.text_eq

/-- A blank before blanks is one of them. -/
theorem Spot.Blanks.cons (hc : Text.isBlank c = true) (hp : p.Takes [c] q) (h : q.Blanks r) :
    p.Blanks r := by
  obtain ⟨ws, hws, hall⟩ := h
  exact ⟨c :: ws, hp.cons hws, by simp [hc, hall]⟩

/-- What looking for the next form does at a spot: it passes over blanks, up to a character that is
none or to the end. -/
theorem Cursor.nextForm_of_standsAt (h : k.StandsAt p) :
    (∃ c l q r, nextForm k = .ok (some c) l ∧ p.Blanks q ∧ q.Takes [c] r ∧ l.StandsAt r ∧
      l.held = none ∧ Text.isBlank c = false) ∨
    ∃ l q, nextForm k = .ok none l ∧ p.Blanks q ∧ l.StandsAt q ∧ q.ahead = [] := by
  fun_induction nextForm k generalizing p with
  | case1 k e k₁ hk => exact absurd hk (Scan.next_ne_error h)
  | case2 k k₁ hk =>
    obtain ⟨hnil, rfl⟩ := Scan.eq_of_next_none h hk
    exact .inr ⟨k₁, p, rfl, .refl p, h, hnil⟩
  | case3 k c k₁ hk hc ih =>
    obtain ⟨q, hp, hq, -⟩ := Scan.exists_of_next h hk
    rcases ih hq with ⟨d, l, r, t, hl, hr, ht⟩ | ⟨l, r, hl, hr, ht⟩
    · exact .inl ⟨d, l, r, t, hl, hr.cons hc hp, ht⟩
    · exact .inr ⟨l, r, hl, hr.cons hc hp, ht⟩
  | case4 k c k₁ hk hc =>
    obtain ⟨q, hp, hq, hheld⟩ := Scan.exists_of_next h hk
    exact .inl ⟨c, k₁, p, q, rfl, .refl p, hp, hq, hheld, Bool.eq_false_iff.2 hc⟩

/-- The next form begins behind blanks, unless the text ends there. -/
theorem Parses.scan_nextForm {F : Frame} :
    Parses F p (Read.scan nextForm) fun c q =>
      match c with
      | some c => Text.isBlank c = false ∧ ∃ r, p.Blanks r ∧ r.Takes [c] q
      | none => p.Blanks q ∧ q.ahead = [] := by
  intro s hs hp
  unfold Read.scan
  rcases nextForm_of_standsAt hp with ⟨c, l, r, q, hl, hblanks, hc, hq, -, hblank⟩ |
    ⟨l, q, hl, hblanks, hq, hnil⟩
  · rw [hl]
    exact ⟨hs, q, hq, hc.text_eq.trans hblanks.text_eq, hblank, r, hblanks, hc⟩
  · rw [hl]
    exact ⟨hs, q, hq, hblanks.text_eq, hblanks, hnil⟩

end

end FormTree
