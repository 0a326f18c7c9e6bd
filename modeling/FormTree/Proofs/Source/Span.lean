import FormTree.Proofs.Source.Spot

/-!
# What scanning takes

A scanning function **keeps to the text** if every run of it, failed ones included, moves a cursor
from a spot to one further on in the same text. All scanning functions do. So what one of them takes
and gives at a spot is a relation between two spots and a value, and since scanning sees only what
is ahead, it is the same for every cursor that stands there.
-/

namespace FormTree.Scan

open Cursor

variable {α β : Type}

/-- Whether a cursor stands further on than a spot, in the same text. -/
def StandsPast (p : Spot) (k : Cursor) : Prop :=
  ∃ cs q, p.Takes cs q ∧ k.StandsAt q

/-- Whether a scanning function keeps to the text. -/
def Keeps (m : Scan α) : Prop :=
  ∀ k p, k.StandsAt p → StandsPast p (stateOf (m k))

/-- Whether a scanning function, begun right after a character `c` was delivered, leaves no cursor
further back than before that character. -/
def KeepsAfter (c : Char) (m : Scan α) : Prop :=
  ∀ k p q, k.StandsAt q → k.held = none → p.Takes [c] q → StandsPast p (stateOf (m k))

section

variable {p q : Spot} {k : Cursor} {cs : List Char}

theorem StandsPast.of_standsAt (h : k.StandsAt p) : StandsPast p k :=
  ⟨[], p, .refl p, h⟩

/-- A cursor past a spot is past those before it. -/
theorem StandsPast.of_takes (hp : p.Takes cs q) (h : StandsPast q k) : StandsPast p k := by
  obtain ⟨ds, r, hq, hk⟩ := h
  exact ⟨cs ++ ds, r, hp.trans hq, hk⟩

end

/-! ### Rules -/

namespace Keeps

/-- A run that succeeds ends further on in the same text. -/
theorem of_eq_ok {m : Scan α} {k l : Cursor} {p : Spot} {a : α} (hm : Keeps m)
    (h : k.StandsAt p) (hk : m k = .ok a l) : StandsPast p l := by
  have hl := hm k p h
  rwa [hk] at hl

theorem pure (a : α) : Keeps (Pure.pure a : Scan α) := fun _ _ h => .of_standsAt h

theorem throw (e : Cause) : Keeps (MonadExcept.throw e : Scan α) := fun _ _ h => .of_standsAt h

/-- Composition: each step goes on from where the one before ended. -/
theorem bind {m : Scan α} {f : α → Scan β} (hm : Keeps m) (hf : ∀ a, Keeps (f a)) :
    Keeps (m >>= f) := by
  intro k p h
  obtain ⟨cs, q, hp, hq⟩ := hm k p h
  rw [stateOf_bind]
  rcases hk : m k with ⟨a, l⟩ | ⟨e, l⟩
  · rw [hk] at hq
    exact (hf a l q hq).of_takes hp
  · rw [hk] at hq
    exact ⟨cs, q, hp, hq⟩

theorem map {m : Scan α} (hm : Keeps m) (f : α → β) : Keeps (f <$> m) :=
  bind hm fun _ => pure _

theorem ite {c : Prop} [Decidable c] {m n : Scan α} (hm : Keeps m) (hn : Keeps n) :
    Keeps (if c then m else n) := by
  split
  · exact hm
  · exact hn

theorem after {m : Scan α} (hm : Keeps m) (c : Char) : KeepsAfter c m :=
  fun k _ q h _ hp => (hm k q h).of_takes hp

end Keeps

theorem keeps_next : Keeps next := by
  intro k p h
  rcases hp : p.ahead with - | ⟨c, rest⟩
  · rw [next_of_standsAt_nil h hp]
    exact .of_standsAt h
  · obtain ⟨l, hl, hq, -⟩ := next_of_standsAt h (Spot.takes_of_ahead hp)
    rw [hl]
    exact .of_takes (Spot.takes_of_ahead hp) (.of_standsAt hq)

/-- A character that was just delivered may be put back first. -/
theorem keepsAfter_unread_bind {c : Char} {m : Scan α} (hm : Keeps m) :
    KeepsAfter c (unread c >>= fun _ => m) :=
  fun k p _ h hheld hp => hm (k.handBack c) p (h.handBack hheld hp)

/-- What is done with the next character may hand that back. -/
theorem keeps_next_bind {f : Option Char → Scan α} (hnone : Keeps (f none))
    (hsome : ∀ c, KeepsAfter c (f (some c))) : Keeps (next >>= f) := by
  intro k p h
  rw [stateOf_bind]
  rcases hp : p.ahead with - | ⟨c, rest⟩
  · rw [next_of_standsAt_nil h hp]
    exact hnone k p h
  · obtain ⟨l, hl, hq, hheld⟩ := next_of_standsAt h (Spot.takes_of_ahead hp)
    rw [hl]
    exact hsome c l p _ hq hheld (Spot.takes_of_ahead hp)

/-! ### Loops -/

section

variable {p : Spot} {k l : Cursor} {c : Char}

/-- A character delivered stands ahead of the spot. -/
theorem exists_of_next (h : k.StandsAt p) (hk : next k = .ok (some c) l) :
    ∃ q, p.Takes [c] q ∧ l.StandsAt q ∧ l.held = none := by
  rcases hp : p.ahead with - | ⟨d, rest⟩
  · rw [next_of_standsAt_nil h hp] at hk
    cases hk
  · obtain ⟨l', hl, hq, hheld⟩ := next_of_standsAt h (Spot.takes_of_ahead hp)
    rw [hl] at hk
    cases hk
    exact ⟨_, Spot.takes_of_ahead hp, hq, hheld⟩

/-- At the end of the text nothing stands ahead of the spot, and the cursor stays there. -/
theorem eq_of_next_none (h : k.StandsAt p) (hk : next k = .ok none l) : p.ahead = [] ∧ l = k := by
  rcases hp : p.ahead with - | ⟨d, rest⟩
  · rw [next_of_standsAt_nil h hp] at hk
    cases hk
    exact ⟨rfl, rfl⟩
  · obtain ⟨l', hl, -⟩ := next_of_standsAt h (Spot.takes_of_ahead hp)
    rw [hl] at hk
    cases hk

/-- A text holds no faults. -/
theorem next_ne_error {e : Cause} (h : k.StandsAt p) : next k ≠ .error e l := by
  intro hk
  rcases hp : p.ahead with - | ⟨d, rest⟩
  · rw [next_of_standsAt_nil h hp] at hk
    cases hk
  · obtain ⟨l', hl, -⟩ := next_of_standsAt h (Spot.takes_of_ahead hp)
    rw [hl] at hk
    cases hk

end

/-- Taking characters up to a stop stays in the text, if what is done with the last one does. -/
theorem keeps_takeTo {last : Char → Cursor → Cursor}
    (hlast : ∀ c k p q, k.StandsAt q → k.held = none → p.Takes [c] q → StandsPast p (last c k))
    (stop : Char → Bool) : Keeps (takeTo last stop) := by
  intro k p h
  fun_induction takeTo last stop k generalizing p with
  | case1 k e k₁ hk => exact absurd hk (next_ne_error h)
  | case2 k k₁ hk =>
    obtain ⟨-, rfl⟩ := eq_of_next_none h hk
    exact .of_standsAt h
  | case3 k c k₁ hk hc =>
    obtain ⟨q, hp, hq, hheld⟩ := exists_of_next h hk
    exact hlast c k₁ p q hq hheld hp
  | case4 k c k₁ hk hc ih =>
    obtain ⟨q, hp, hq, -⟩ := exists_of_next h hk
    rw [stateOf_prepend]
    exact (ih q hq).of_takes hp

theorem keeps_takeUntil (stop : Char → Bool) : Keeps (takeUntil stop) :=
  keeps_takeTo (fun _ _ _ _ h hheld hp => .of_standsAt (h.handBack hheld hp)) stop

theorem keeps_takeThrough (stop : Char → Bool) : Keeps (takeThrough stop) :=
  keeps_takeTo (fun _ _ _ _ h _ hp => .of_takes hp (.of_standsAt h)) stop

theorem keeps_nextForm : Keeps nextForm := by
  intro k p h
  fun_induction nextForm k generalizing p with
  | case1 k e k₁ hk => exact absurd hk (next_ne_error h)
  | case2 k k₁ hk =>
    obtain ⟨-, rfl⟩ := eq_of_next_none h hk
    exact .of_standsAt h
  | case3 k c k₁ hk hc ih =>
    obtain ⟨q, hp, hq, -⟩ := exists_of_next h hk
    exact (ih q hq).of_takes hp
  | case4 k c k₁ hk hc =>
    obtain ⟨q, hp, hq, -⟩ := exists_of_next h hk
    exact .of_takes hp (.of_standsAt hq)

theorem keeps_inString : Keeps inString :=
  .bind keeps_next fun c => by
    cases c
    · exact .throw _
    · exact .pure _

theorem keeps_digits (radix more count code : Nat) : Keeps (digits radix more count code) := by
  induction more generalizing count code with
  | zero => exact .pure _
  | succ more ih =>
    refine keeps_next_bind (.pure _) fun c => ?_
    dsimp only
    split
    · exact keepsAfter_unread_bind (.pure _)
    · cases Text.digitValue? radix c with
      | none => exact (Keeps.throw _).after c
      | some d => exact (ih _ _).after c

theorem keeps_digitsFrom (first : Char) (radix length : Nat) :
    Keeps (digitsFrom first radix length) := by
  unfold digitsFrom
  cases Text.digitValue? radix first
  · exact .throw _
  · exact keeps_digits _ _ _ _

theorem keeps_codeUnit : Keeps codeUnit :=
  .bind keeps_inString fun _ => .bind (keeps_digitsFrom _ _ _) fun _ => .ite (.pure _) (.throw _)

theorem keeps_lowUnit (high : Nat) : Keeps (lowUnit high) := by
  refine .bind keeps_inString fun _ => .ite ?_ (.throw _)
  refine .bind keeps_inString fun _ => .ite ?_ (.throw _)
  exact .bind keeps_codeUnit fun _ => .ite (.pure _) (.throw _)

theorem keeps_scalarFrom (unit n : Nat) : Keeps (scalarFrom unit n) := by
  unfold scalarFrom
  cases scalar? n
  · exact .throw _
  · exact .pure _

theorem keeps_unicodeEscape : Keeps unicodeEscape :=
  .bind keeps_codeUnit fun _ =>
    .ite (.bind (keeps_lowUnit _) fun _ => keeps_scalarFrom _ _) (keeps_scalarFrom _ _)

theorem keeps_escape : Keeps escape := by
  refine .bind keeps_inString fun c => ?_
  split
  case h_8 => exact keeps_unicodeEscape
  case h_9 =>
    exact .ite (.bind (keeps_digitsFrom _ _ _) fun _ => .ite (.pure _) (.throw _)) (.throw _)
  all_goals exact .pure _

theorem keeps_stringBody : Keeps stringBody := by
  intro k p h
  fun_induction stringBody k generalizing p with
  | case1 k e k₁ hk => exact absurd hk (next_ne_error h)
  | case2 k k₁ hk =>
    obtain ⟨-, rfl⟩ := eq_of_next_none h hk
    exact .of_standsAt h
  | case3 k c k₁ hk hc =>
    obtain ⟨q, hp, hq, -⟩ := exists_of_next h hk
    exact .of_takes hp (.of_standsAt hq)
  | case4 k c k₁ hk hc hb d k₂ he ih =>
    obtain ⟨q, hp, hq, -⟩ := exists_of_next h hk
    obtain ⟨es, r, hr, hk₂⟩ := keeps_escape.of_eq_ok hq he
    rw [stateOf_prepend]
    exact ((ih r hk₂).of_takes hr).of_takes hp
  | case5 k c k₁ hk hc hb e k₂ he =>
    obtain ⟨q, hp, hq, -⟩ := exists_of_next h hk
    have hk₂ := keeps_escape k₁ q hq
    rw [he] at hk₂
    exact hk₂.of_takes hp
  | case6 k c k₁ hk hc hb ih =>
    obtain ⟨q, hp, hq, -⟩ := exists_of_next h hk
    rw [stateOf_prepend]
    exact (ih q hq).of_takes hp

theorem keeps_patternBody : Keeps patternBody := by
  intro k p h
  fun_induction patternBody k generalizing p with
  | case1 k e k₁ hk => exact absurd hk (next_ne_error h)
  | case2 k k₁ hk =>
    obtain ⟨-, rfl⟩ := eq_of_next_none h hk
    exact .of_standsAt h
  | case3 k c k₁ hk hc =>
    obtain ⟨q, hp, hq, -⟩ := exists_of_next h hk
    exact .of_takes hp (.of_standsAt hq)
  | case4 k c k₁ hk hc hb e k₂ hd =>
    obtain ⟨q, hp, hq, -⟩ := exists_of_next h hk
    exact absurd hd (next_ne_error hq)
  | case5 k c k₁ hk hc hb k₂ hd =>
    obtain ⟨q, hp, hq, -⟩ := exists_of_next h hk
    obtain ⟨-, rfl⟩ := eq_of_next_none hq hd
    exact .of_takes hp (.of_standsAt hq)
  | case6 k c k₁ hk hc hb d k₂ hd ih =>
    obtain ⟨q, hp, hq, -⟩ := exists_of_next h hk
    obtain ⟨r, hr, hk₂, -⟩ := exists_of_next hq hd
    rw [stateOf_prepend]
    exact ((ih r hk₂).of_takes hr).of_takes hp
  | case7 k c k₁ hk hc hb ih =>
    obtain ⟨q, hp, hq, -⟩ := exists_of_next h hk
    rw [stateOf_prepend]
    exact (ih q hq).of_takes hp

/-! ### Literals -/

theorem keeps_string : Keeps string := .map keeps_stringBody _

theorem keeps_pattern : Keeps pattern := .map keeps_patternBody _

theorem keeps_token (first : Char) : Keeps (token first) :=
  .bind (keeps_takeUntil _) fun _ => .pure _

theorem keeps_number (first : Char) : Keeps (number first) := by
  refine .bind (keeps_takeUntil _) fun rest => ?_
  dsimp only
  split
  · exact .pure _
  · exact .throw _

theorem keeps_line : Keeps line := .bind (keeps_takeThrough _) fun _ => .pure _

theorem keeps_charLiteral : Keeps charLiteral := by
  refine .bind keeps_next fun c => ?_
  cases c with
  | none => exact .throw _
  | some c =>
    refine .bind (keeps_token c) fun text => ?_
    split
    · exact .pure _
    · exact .throw _

/-! ### What a function takes and gives -/

/-- Whether scanning with `m` gives `a` and takes what stands between two spots. -/
def Gives (m : Scan α) (p : Spot) (a : α) (q : Spot) : Prop :=
  (∃ cs, p.Takes cs q) ∧ ∃ k l, k.StandsAt p ∧ m k = .ok a l ∧ l.StandsAt q

/-- What a cursor takes and gives at a spot is a relation of the spots. -/
theorem Gives.of_eq_ok {m : Scan α} {k l : Cursor} {p : Spot} {a : α} (hm : Keeps m)
    (h : k.StandsAt p) (hk : m k = .ok a l) : ∃ q, l.StandsAt q ∧ Gives m p a q := by
  obtain ⟨cs, q, hp, hq⟩ := hm.of_eq_ok h hk
  exact ⟨q, hq, ⟨cs, hp⟩, k, l, h, hk, hq⟩

/-- A cursor with what is ahead of a spot left to deliver stands there, if it came from before
it. -/
theorem Keeps.standsAt {m : Scan α} {k l : Cursor} {p q : Spot} {a : α} {cs : List Char}
    (hm : Keeps m) (h : k.StandsAt p) (hk : m k = .ok a l) (hq : p.Takes cs q) (hl : l.At q.ahead) :
    l.StandsAt q := by
  obtain ⟨ds, r, hr, hlr⟩ := hm.of_eq_ok h hk
  have hahead : q.ahead = r.ahead :=
    (List.map_inj_right fun _ _ h => Except.ok.inj h).1 (hl.symm.trans hlr.pending_eq)
  rwa [Spot.eq_of_ahead_eq (hq.text_eq.trans hr.text_eq.symm) hahead]

/-- What scanning takes and gives at a spot is the same for every cursor that stands there. -/
theorem Gives.exists_eq_ok {m : Scan α} {k : Cursor} {p q : Spot} {a : α} (hm : Keeps m)
    (hblind : Blind m) (h : Gives m p a q) (hk : k.StandsAt p) :
    ∃ l, m k = .ok a l ∧ l.StandsAt q := by
  obtain ⟨⟨cs, hp⟩, k', l', hk', hrun, hl'⟩ := h
  -- the two cursors have the same ahead of them, so both runs leave the same
  have hr := hblind k' k (hk'.alike hk)
  rw [hrun] at hr
  obtain ⟨_, l, hl, rfl, halike⟩ := hr.exists_of_ok
  exact ⟨l, hl, hm.standsAt hk hl hp (halike.pending_eq.symm.trans hl'.pending_eq)⟩

end FormTree.Scan
