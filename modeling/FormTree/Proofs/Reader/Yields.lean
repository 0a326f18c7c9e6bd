import FormTree.Proofs.Form.Legal
import FormTree.Proofs.Source.Scanned
import FormTree.Reader.Level

/-!
# What reading functions give in a frame

A reading function **yields** values with a property in a frame if every successful run that starts
in that frame gives such a value and ends in the same frame. Composed functions do if their parts
do; a level further down, and inside of a scope, the frame of the parts is another one.
-/

namespace FormTree

open Cursor

variable {α β : Type}

namespace Read

/-- A change of the final state is seen in that state only. -/
theorem mapState_eq_ok {f : State → State} {r : EStateM.Result Cause State α} {a : α} {t : State} :
    mapState f r = .ok a t ↔ ∃ s, r = .ok a s ∧ t = f s := by
  rcases r with ⟨b, s⟩ | ⟨e, s⟩
  · constructor
    · intro h
      cases h
      exact ⟨s, rfl, rfl⟩
    · rintro ⟨_, h, rfl⟩
      cases h
      rfl
  · simp [mapState]

end Read

/-- The frame of what is read next. -/
def State.frame (s : State) : Frame :=
  ⟨s.scopes.inFunction, s.scopes.conditionals, s.remaining⟩

/-- A frame says of a state whether it is inside of a function literal, inside of how many
conditionals, and how many levels are left. -/
theorem State.frame_eq_iff {s : State} {F : Frame} :
    s.frame = F ↔ s.scopes.inFunction = F.inFunction ∧ s.scopes.conditionals = F.conditionals ∧
      s.remaining = F.remaining := by
  rcases F with ⟨inFunction, conditionals, remaining⟩
  simp only [State.frame, Frame.mk.injEq]

namespace State

variable {s : State} {F : Frame}

/-- Entering a function literal is seen in the frame. -/
theorem frame_enter_function (h : s.frame = F) :
    State.frame { s with scopes := s.scopes.enter .function } = { F with inFunction := true } :=
  frame_eq_iff.2 ⟨rfl, (frame_eq_iff.1 h).2⟩

/-- Leaving a function literal gives the frame back around it, since it is not inside of another
one. -/
theorem frame_leave_function (hF : F.inFunction = false)
    (h : s.frame = { F with inFunction := true }) :
    State.frame { s with scopes := s.scopes.leave .function } = F :=
  frame_eq_iff.2 ⟨hF.symm, (frame_eq_iff.1 h).2⟩

theorem frame_enter_conditional (h : s.frame = F) :
    State.frame { s with scopes := s.scopes.enter .conditional } =
      { F with conditionals := F.conditionals + 1 } := by
  obtain ⟨hfunction, hconditionals, hremaining⟩ := frame_eq_iff.1 h
  exact frame_eq_iff.2 ⟨hfunction, congrArg (· + 1) hconditionals, hremaining⟩

/-- Leaving a conditional undoes what entering it did to the frame. -/
theorem frame_leave_conditional (h : s.frame = { F with conditionals := F.conditionals + 1 }) :
    State.frame { s with scopes := s.scopes.leave .conditional } = F := by
  obtain ⟨hfunction, hconditionals, hremaining⟩ := frame_eq_iff.1 h
  exact frame_eq_iff.2 ⟨hfunction, congrArg (· - 1) hconditionals, hremaining⟩

end State

/-- Whether successful runs in a frame give values in `Q` and keep the frame. -/
def Yields (F : Frame) (m : Read α) (Q : α → Prop) : Prop :=
  ∀ s a t, s.frame = F → m s = .ok a t → Q a ∧ t.frame = F

namespace Yields

variable {F : Frame} {m : Read α} {Q : α → Prop} {R : β → Prop}

theorem mono {Q' : α → Prop} (hm : Yields F m Q) (hQ : ∀ a, Q a → Q' a) : Yields F m Q' := by
  intro s a t hs h
  obtain ⟨ha, ht⟩ := hm s a t hs h
  exact ⟨hQ a ha, ht⟩

theorem pure {a : α} (ha : Q a) : Yields F (Pure.pure a) Q := by
  intro s b t hs h
  cases h
  exact ⟨ha, hs⟩

theorem throw (e : Cause) : Yields F (MonadExcept.throw e) Q := by
  intro s b t _ h
  cases h

/-- Composition: what follows may rely on what the first step yields, in the same frame. -/
theorem bind {f : α → Read β} (hm : Yields F m Q) (hf : ∀ a, Q a → Yields F (f a) R) :
    Yields F (m >>= f) R := by
  intro s b u hs h
  obtain ⟨a, t, hmt, hfu⟩ := bind_eq_ok.1 h
  obtain ⟨ha, ht⟩ := hm s a t hs hmt
  exact hf a ha t b u ht hfu

theorem ite {c : Prop} [Decidable c] {n : Read α} (hm : c → Yields F m Q)
    (hn : ¬ c → Yields F n Q) : Yields F (if c then m else n) Q := by
  by_cases hc : c
  · rw [if_pos hc]
    exact hm hc
  · rw [if_neg hc]
    exact hn hc

/-- Scanning does not touch the frame, so that only its value matters. -/
theorem scan {m : Scan α} (hm : ∀ k a k', m k = .ok a k' → Q a) : Yields F (Read.scan m) Q := by
  intro s a t hs h
  obtain ⟨k, hk, rfl⟩ := Read.scan_eq_ok.1 h
  exact ⟨hm _ _ _ hk, hs⟩

theorem ofExcept {x : Except Cause α} (hx : ∀ a, x = .ok a → Q a) :
    Yields F (MonadExcept.ofExcept x) Q := by
  rcases x with e | a
  · exact throw e
  · exact pure (hx a rfl)

theorem position : Yields F Read.position fun _ => True := by
  intro s a t hs h
  cases h
  exact ⟨trivial, hs⟩

/-- The scopes of a state tell what its frame says of conditionals. -/
theorem scopes :
    Yields F Read.scopes fun scopes => scopes.inConditional = F.inConditional := by
  intro s a t hs h
  cases h
  exact ⟨hs ▸ rfl, hs⟩

/-- One level further down the budget is smaller by one. -/
theorem descend (hm : ∀ G : Frame, G.up = F → Yields G m Q) : Yields F (Read.descend m) Q := by
  intro s a t hs h
  rw [Read.descend] at h
  split at h
  · cases h
  · rename_i hpos
    obtain ⟨u, hu, rfl⟩ := Read.mapState_eq_ok.1 h
    have hup : (State.frame { s with remaining := s.remaining - 1 }).up = F := by
      rw [← hs, State.frame, State.frame, Frame.up, Nat.sub_add_cancel (Nat.pos_of_ne_zero hpos)]
    obtain ⟨ha, hframe⟩ := hm _ hup _ _ _ rfl hu
    refine ⟨ha, ?_⟩
    rw [← hup, ← hframe]
    rfl

/-- Backquotes are not seen in frames. -/
theorem within_backquote (hm : Yields F m Q) : Yields F (Read.within .backquote m) Q := by
  intro s a t hs h
  obtain ⟨u, hu, rfl⟩ := Read.mapState_eq_ok.1 h
  have hinner : State.frame { s with scopes := s.scopes.enter .backquote } = F := hs
  obtain ⟨ha, hframe⟩ := hm _ _ _ hinner hu
  exact ⟨ha, hframe⟩

/-- A function literal is not read inside of another one. -/
theorem within_function (hF : F.inFunction = false)
    (hm : Yields { F with inFunction := true } m Q) : Yields F (Read.within .function m) Q := by
  intro s a t hs h
  obtain ⟨u, hu, rfl⟩ := Read.mapState_eq_ok.1 h
  obtain ⟨ha, hframe⟩ := hm _ _ _ (State.frame_enter_function hs) hu
  exact ⟨ha, State.frame_leave_function hF hframe⟩

/-- Inside of a conditional the frame has one more of them. -/
theorem within_conditional (hm : Yields { F with conditionals := F.conditionals + 1 } m Q) :
    Yields F (Read.within .conditional m) Q := by
  intro s a t hs h
  obtain ⟨u, hu, rfl⟩ := Read.mapState_eq_ok.1 h
  obtain ⟨ha, hframe⟩ := hm _ _ _ (State.frame_enter_conditional hs) hu
  exact ⟨ha, State.frame_leave_conditional hframe⟩

theorem nextCharacter : Yields F Read.nextCharacter fun _ => True := by
  refine bind (scan fun _ _ _ _ => trivial) fun c _ => ?_
  rcases c with - | c
  · exact throw _
  · exact pure trivial

end Yields

end FormTree
