import FormTree.Proofs.Source.Span

/-!
# Scanning a text that is cut off

A text is cut off where a blank stands in it. What is scanned in the shorter text is compared with
what is scanned in the longer one, from places with the same before them. The two runs keep step as
long as neither needs to see what is at the cut. A token or number ends there in both texts: at the
blank, which is handed back, or at the end. A string or pattern does not end there, so the shorter
text ends too early. Only a comment may end at the cut in the shorter text and go on in the longer
one; after that the shorter text is spent.
-/

namespace FormTree

variable {σ α β : Type}

/-- How the run in the shorter text, the second one, may end beside that in the longer text: they
keep step, or go beyond the cut with values in `R`, or both fail, or the shorter text ends too
early. -/
inductive Curtailed (S T : σ → σ → Prop) (R : α → α → Prop) :
    EStateM.Result Cause σ α → EStateM.Result Cause σ α → Prop
  | inStep {a : α} {s t : σ} (h : S s t) : Curtailed S T R (.ok a s) (.ok a t)
  | beyond {a b : α} {s t : σ} (hvalue : R a b) (h : T s t) : Curtailed S T R (.ok a s) (.ok b t)
  | error {e f : Cause} {s t : σ} : Curtailed S T R (.error e s) (.error f t)
  | starved {r : EStateM.Result Cause σ α} {f : Cause} {t : σ} (hf : f.category = .endOfInput) :
    Curtailed S T R r (.error f t)

/-- Whether the runs of a function from states in `P` end so. -/
def Curtails (P S T : σ → σ → Prop) (R : α → α → Prop) (m : EStateM Cause σ α) : Prop :=
  ∀ s t, P s t → Curtailed S T R (m s) (m t)

/-- No values at all: the cut is not passed. -/
abbrev Never : α → α → Prop := fun _ _ => False

namespace Curtailed

variable {S T S' T' : σ → σ → Prop} {R : α → α → Prop} {Q : β → β → Prop}

/-- What two runs go on with is compared where they keep step and where they have gone beyond the
cut. -/
theorem bind {m n : EStateM Cause σ α} {f g : α → EStateM Cause σ β} {s t : σ}
    (h : Curtailed S T R (m s) (n t))
    (hstep : ∀ a s' t', n t = .ok a t' → S s' t' → Curtailed S' T' Q (f a s') (g a t'))
    (hbeyond : ∀ a b s' t', R a b → T s' t' → Curtailed S' T' Q (f a s') (g b t')) :
    Curtailed S' T' Q ((m >>= f) s) ((n >>= g) t) := by
  rw [bind_apply, bind_apply]
  generalize m s = r at h
  generalize n t = u at h hstep
  cases h with
  | inStep h => exact hstep _ _ _ rfl h
  | beyond hvalue h => exact hbeyond _ _ _ _ hvalue h
  | error => exact .error
  | starved hf => exact .starved hf

theorem map {m n : EStateM Cause σ α} {s t : σ} (h : Curtailed S T Never (m s) (n t)) (f : α → β) :
    Curtailed S T' Q ((f <$> m) s) ((f <$> n) t) :=
  h.bind (fun _ _ _ _ h => .inStep h) fun _ _ _ _ h => h.elim

end Curtailed

/-! ### Rules -/

namespace Curtails

variable {P S T : σ → σ → Prop} {R : α → α → Prop} {Q : β → β → Prop}

theorem pure (a : α) : Curtails S S T R (Pure.pure a : EStateM Cause σ α) := fun _ _ h => .inStep h

theorem throw (e : Cause) : Curtails P S T R (MonadExcept.throw e : EStateM Cause σ α) :=
  fun _ _ _ => .error

/-- What comes after a part is compared in step and, for values in `R`, beyond the cut. -/
theorem bind_beyond {m : EStateM Cause σ α} {f : α → EStateM Cause σ β} (hm : Curtails P S T R m)
    (hstep : ∀ a, Curtails S S T Q (f a))
    (hbeyond : ∀ a b, R a b → ∀ s t, T s t → Curtailed S T Q (f a s) (f b t)) :
    Curtails P S T Q (m >>= f) :=
  fun s t h => (hm s t h).bind (fun a s' t' _ h => hstep a s' t' h) fun a b s' t' hab h =>
    hbeyond a b hab s' t' h

theorem bind {m : EStateM Cause σ α} {f : α → EStateM Cause σ β} (hm : Curtails P S T Never m)
    (hf : ∀ a, Curtails S S T Q (f a)) : Curtails P S T Q (m >>= f) :=
  bind_beyond hm hf fun _ _ h => h.elim

theorem map {m : EStateM Cause σ α} (hm : Curtails P S T Never m) (f : α → β) :
    Curtails P S T Q (f <$> m) :=
  bind hm fun _ => pure _

theorem ite {c : Prop} [Decidable c] {m n : EStateM Cause σ α} (hm : Curtails P S T R m)
    (hn : Curtails P S T R n) : Curtails P S T R (if c then m else n) := by
  split
  · exact hm
  · exact hn

theorem ofExcept (x : Except Cause α) :
    Curtails S S T R (MonadExcept.ofExcept x : EStateM Cause σ α) := by
  cases x with
  | ok a => exact pure a
  | error e => exact throw e

theorem restrict {P' : σ → σ → Prop} {m : EStateM Cause σ α} (hm : Curtails P S T R m)
    (hP : ∀ s t, P' s t → P s t) : Curtails P' S T R m :=
  fun s t h => hm s t (hP s t h)

end Curtails

/-! ### Places in the two texts -/

/-- The place with `ext` after the end of its text. -/
def Spot.extend (ext : List Char) (p : Spot) : Spot := ⟨p.passed, p.ahead ++ ext⟩

/-- Characters are passed in the longer text as in the shorter one. -/
theorem Spot.Takes.extend {p q : Spot} {cs : List Char} (h : p.Takes cs q) (ext : List Char) :
    (p.extend ext).Takes cs (q.extend ext) :=
  ⟨by rw [Spot.extend, Spot.extend, h.1, List.append_assoc], h.2⟩

/-- At the end of the shorter text the longer one goes on with the character after the cut. -/
theorem Spot.extend_takes_of_nil {p : Spot} (h : p.ahead = []) (c : Char) (rest : List Char) :
    (p.extend (c :: rest)).Takes [c] ⟨c :: p.passed, rest⟩ :=
  ⟨by rw [Spot.extend, h]; rfl, rfl⟩

namespace Cursor

/-- Whether two cursors stand at one place, the first one in a text with `ext` after it. -/
def InStep (ext : List Char) (k l : Cursor) : Prop :=
  ∃ p : Spot, k.StandsAt (p.extend ext) ∧ l.StandsAt p

/-- Whether two cursors in step have just delivered `d`. -/
def Delivered (ext : List Char) (d : Char) (k l : Cursor) : Prop :=
  ∃ p q : Spot, p.Takes [d] q ∧ (k.StandsAt (q.extend ext) ∧ k.held = none) ∧
    l.StandsAt q ∧ l.held = none

/-- Whether the second cursor is at the end, and the first one has just delivered the character
after it. -/
def Crossed (c : Char) (rest : List Char) (k l : Cursor) : Prop :=
  ∃ p : Spot, p.ahead = [] ∧ (k.StandsAt ⟨c :: p.passed, rest⟩ ∧ k.held = none) ∧ l.StandsAt p

/-- Whether the second cursor is at the end, and the first one anywhere: but if the line ends at the
cut, then right after it. -/
def Beyond (c : Char) (rest : List Char) (k l : Cursor) : Prop :=
  l.At [] ∧ (Scan.endsLine c = true → ∃ p : Spot, p.ahead = rest ∧ k.StandsAt p)

variable {ext rest : List Char} {c d : Char} {k l : Cursor}

/-- Cursors in step have the same position. -/
theorem InStep.position_eq (h : InStep ext k l) : k.position = l.position := by
  obtain ⟨p, hk, hl⟩ := h
  rw [hk.position_eq, hl.position_eq]
  rfl

theorem Delivered.inStep (h : Delivered ext d k l) : InStep ext k l := by
  obtain ⟨p, q, -, ⟨hk, -⟩, hl, -⟩ := h
  exact ⟨q, hk, hl⟩

/-- A character delivered to both is handed back to both. -/
theorem Delivered.handBack (h : Delivered ext d k l) :
    InStep ext (k.handBack d) (l.handBack d) := by
  obtain ⟨p, q, hpq, ⟨hk, hkheld⟩, hl, hlheld⟩ := h
  exact ⟨p, hk.handBack hkheld (hpq.extend ext), hl.handBack hlheld hpq⟩

/-- A blank at the cut that is handed back leaves the cursors in step. -/
theorem Crossed.handBack (h : Crossed c rest k l) : InStep (c :: rest) (k.handBack c) l := by
  obtain ⟨p, hp, ⟨hk, hheld⟩, hl⟩ := h
  exact ⟨p, hk.handBack hheld (Spot.extend_takes_of_nil hp c rest), hl⟩

theorem Crossed.beyond (h : Crossed c rest k l) : Beyond c rest k l := by
  obtain ⟨p, hp, ⟨hk, -⟩, hl⟩ := h
  exact ⟨by rw [At, hl.pending_eq, hp], fun _ => ⟨_, rfl, hk⟩⟩

/-- What is next is the same in both texts, or it is at the cut. -/
theorem next_of_inStep (h : InStep (c :: rest) k l) :
    (∃ d k' l', next k = .ok (some d) k' ∧ next l = .ok (some d) l' ∧
        Delivered (c :: rest) d k' l') ∨
      ∃ k', next k = .ok (some c) k' ∧ next l = .ok none l ∧ Crossed c rest k' l := by
  obtain ⟨p, hk, hl⟩ := h
  rcases hp : p.ahead with - | ⟨d, ds⟩
  · obtain ⟨k', hnext, hk', hheld⟩ := next_of_standsAt hk (Spot.extend_takes_of_nil hp c rest)
    exact .inr ⟨k', hnext, next_of_standsAt_nil hl hp, p, hp, ⟨hk', hheld⟩, hl⟩
  · have htakes := Spot.takes_of_ahead hp
    obtain ⟨k', hnext, hk', hheld⟩ := next_of_standsAt hk (htakes.extend _)
    obtain ⟨l', hnext', hl', hheld'⟩ := next_of_standsAt hl htakes
    exact .inl ⟨d, k', l', hnext, hnext', p, _, htakes, ⟨hk', hheld⟩, hl', hheld'⟩

/-- A character of the shorter text is next in the longer one. -/
theorem exists_of_next_of_inStep {l' : Cursor} (h : InStep (c :: rest) k l)
    (hl : next l = .ok (some d) l') :
    ∃ k', next k = .ok (some d) k' ∧ Delivered (c :: rest) d k' l' := by
  rcases next_of_inStep h with ⟨d', k', l₁, hk, hl', hboth⟩ | ⟨k', -, hl', -⟩ <;> rw [hl] at hl' <;>
    cases hl'
  exact ⟨k', hk, hboth⟩

/-- Where the shorter text ends the longer one has the character at the cut. -/
theorem exists_of_next_none_of_inStep {l' : Cursor} (h : InStep (c :: rest) k l)
    (hl : next l = .ok none l') :
    l' = l ∧ ∃ k', next k = .ok (some c) k' ∧ Crossed c rest k' l := by
  rcases next_of_inStep h with ⟨d', k', l₁, -, hl', -⟩ | ⟨k', hk, hl', hcrossed⟩ <;>
    rw [hl] at hl' <;> cases hl'
  exact ⟨rfl, k', hk, hcrossed⟩

/-- A text has no faults in it. -/
theorem next_ne_error_of_inStep {l' : Cursor} {e : Cause} (h : InStep (c :: rest) k l) :
    next l ≠ .error e l' := by
  obtain ⟨p, -, hl⟩ := h
  exact Scan.next_ne_error hl

end Cursor

namespace Scan

open Cursor

variable {c : Char} {rest : List Char}

/-- Whether a scanning function, begun in step, keeps step up to the cut, or goes beyond it with
values in `R`. -/
abbrev Cuts (c : Char) (rest : List Char) (R : α → α → Prop) (m : Scan α) : Prop :=
  Curtails (InStep (c :: rest)) (InStep (c :: rest)) (Beyond c rest) R m

/-- What is done with the next character is compared where both texts have one, and at the cut. -/
theorem curtailed_next_bind {R : α → α → Prop} {f : Option Char → Scan α} {k l : Cursor}
    (h : InStep (c :: rest) k l)
    (hsome : ∀ d k' l', next l = .ok (some d) l' → Delivered (c :: rest) d k' l' →
      Curtailed (InStep (c :: rest)) (Beyond c rest) R (f (some d) k') (f (some d) l'))
    (hcut : ∀ k', Crossed c rest k' l →
      Curtailed (InStep (c :: rest)) (Beyond c rest) R (f (some c) k') (f none l)) :
    Curtailed (InStep (c :: rest)) (Beyond c rest) R ((next >>= f) k) ((next >>= f) l) := by
  rw [bind_apply, bind_apply]
  rcases next_of_inStep h with ⟨d, k', l', hk, hl, h⟩ | ⟨k', hk, hl, h⟩
  · rw [hk, hl]
    exact hsome d k' l' hl h
  · rw [hk, hl]
    exact hcut k' h

/-- **The next character across the cut**: both cursors are delivered the same one, or the shorter
text has ended, and the longer one is delivered the character after the cut. -/
theorem cuts_next_bind {R : α → α → Prop} {f : Option Char → Scan α}
    (hsome : ∀ d, Curtails (Delivered (c :: rest) d) (InStep (c :: rest)) (Beyond c rest) R
      (f (some d)))
    (hcut : ∀ k l, Crossed c rest k l →
      Curtailed (InStep (c :: rest)) (Beyond c rest) R (f (some c) k) (f none l)) :
    Cuts c rest R (next >>= f) :=
  fun _ l h => curtailed_next_bind h (fun d k' l' _ h => hsome d k' l' h) fun k' h => hcut k' l h

theorem cuts_inString : Cuts c rest Never inString :=
  cuts_next_bind (fun _ => .restrict (.pure _) fun _ _ h => h.inStep) fun _ _ _ => .starved rfl

/-! ### Escapes -/

section

variable (hc : Text.isBlank c = true)
include hc

theorem cuts_digits (radix more count code : Nat) :
    Cuts c rest Never (digits radix more count code) := by
  induction more generalizing count code with
  | zero => exact .pure _
  | succ more ih =>
    refine cuts_next_bind (fun d => ?_) fun k l h => ?_
    · dsimp only
      split
      · exact fun k l h => .inStep h.handBack
      · cases Text.digitValue? radix d with
        | none => exact .throw _
        | some d => exact .restrict (ih _ _) fun _ _ h => h.inStep
    -- the blank at the cut ends the number as the end of the shorter text does
    · have hends : endsNumber c = true := by rw [endsNumber, hc, Bool.true_or]
      dsimp only
      rw [if_pos hends]
      exact .inStep h.handBack

theorem cuts_digitsFrom (first : Char) (radix length : Nat) :
    Cuts c rest Never (digitsFrom first radix length) := by
  unfold digitsFrom
  cases Text.digitValue? radix first
  · exact .throw _
  · exact cuts_digits hc _ _ _ _

theorem cuts_codeUnit : Cuts c rest Never codeUnit :=
  .bind cuts_inString fun _ => .bind (cuts_digitsFrom hc _ _ _) fun _ => .ite (.pure _) (.throw _)

theorem cuts_lowUnit (high : Nat) : Cuts c rest Never (lowUnit high) := by
  refine .bind cuts_inString fun _ => .ite ?_ (.throw _)
  refine .bind cuts_inString fun _ => .ite ?_ (.throw _)
  exact .bind (cuts_codeUnit hc) fun _ => .ite (.pure _) (.throw _)

omit hc in
theorem cuts_scalarFrom (unit n : Nat) : Cuts c rest Never (scalarFrom unit n) := by
  unfold scalarFrom
  cases scalar? n
  · exact .throw _
  · exact .pure _

theorem cuts_unicodeEscape : Cuts c rest Never unicodeEscape :=
  .bind (cuts_codeUnit hc) fun _ => .ite
    (.bind (cuts_lowUnit hc _) fun _ => cuts_scalarFrom _ _) (cuts_scalarFrom _ _)

theorem cuts_escape : Cuts c rest Never escape := by
  refine .bind cuts_inString fun _ => ?_
  split
  case h_8 => exact cuts_unicodeEscape hc
  case h_9 =>
    exact .ite (.bind (cuts_digitsFrom hc _ _ _) fun _ => .ite (.pure _) (.throw _)) (.throw _)
  all_goals exact .pure _

end

/-! ### Loops -/

theorem curtailed_prepend {S T : Cursor → Cursor → Prop} {R : List Char → List Char → Prop}
    {r u : EStateM.Result Cause Cursor (List Char)} (cs : List Char)
    (hR : ∀ as bs, R as bs → R (cs ++ as) (cs ++ bs)) (h : Curtailed S T R r u) :
    Curtailed S T R (prepend cs r) (prepend cs u) := by
  cases h with
  | inStep h => exact .inStep h
  | beyond hvalue h => exact .beyond (hR _ _ hvalue) h
  | error => exact .error
  | starved hf => exact .starved hf

/-- Taking characters from a text succeeds. -/
theorem exists_takeTo {last : Char → Cursor → Cursor} {stop : Char → Bool} {k : Cursor} {p : Spot}
    (h : k.StandsAt p) : ∃ cs k', takeTo last stop k = .ok cs k' := by
  fun_induction takeTo last stop k generalizing p with
  | case1 k e k₁ hk => exact absurd hk (next_ne_error h)
  | case2 k k₁ hk => exact ⟨_, _, rfl⟩
  | case3 k c k₁ hk hc => exact ⟨_, _, rfl⟩
  | case4 k c k₁ hk hc ih =>
    obtain ⟨q, -, hq, -⟩ := exists_of_next h hk
    obtain ⟨cs, k', hrest⟩ := ih hq
    exact ⟨[c] ++ cs, k', by rw [hrest]; rfl⟩

section

variable {last : Char → Cursor → Cursor} {stop : Char → Bool} {R : List Char → List Char → Prop}

/-- What is taken up to a character to stop at is the same in both texts, if it is before the cut.
What is taken at the cut has to be compared. -/
theorem cuts_takeTo (hR : ∀ d as bs, R as bs → R ([d] ++ as) ([d] ++ bs))
    (hlast : ∀ d k l, Delivered (c :: rest) d k l → InStep (c :: rest) (last d k) (last d l))
    (hcut : ∀ k k' l, InStep (c :: rest) k l → next k = .ok (some c) k' → Crossed c rest k' l →
      Curtailed (InStep (c :: rest)) (Beyond c rest) R (takeTo last stop k) (.ok [] l)) :
    Cuts c rest R (takeTo last stop) := by
  intro k l h
  -- the induction follows the shorter text; the loop in the longer one is unfolded beside it
  fun_induction takeTo last stop l generalizing k with
  | case1 l e l₁ hl => exact absurd hl (next_ne_error_of_inStep h)
  | case2 l l₁ hl =>
    obtain ⟨rfl, k', hk, hcrossed⟩ := exists_of_next_none_of_inStep h hl
    exact hcut k k' _ h hk hcrossed
  | case3 l d l₁ hl hd =>
    obtain ⟨k', hk, hboth⟩ := exists_of_next_of_inStep h hl
    rw [takeTo_of_stop hk hd]
    exact .inStep (hlast _ _ _ hboth)
  | case4 l d l₁ hl hd ih =>
    obtain ⟨k', hk, hboth⟩ := exists_of_next_of_inStep h hl
    rw [takeTo_of_next hk hd]
    exact curtailed_prepend _ (hR d) (ih _ hboth.inStep)

end

/-- What runs up to a character to stop at ends at the cut in both texts. -/
theorem cuts_takeUntil {stop : Char → Bool} (hc : stop c = true) :
    Cuts c rest Never (takeUntil stop) := by
  refine cuts_takeTo (fun _ _ _ h => h) (fun _ _ _ h => h.handBack) fun k k' l _ hk h => ?_
  rw [takeTo_of_stop hk hc]
  exact .inStep h.handBack

/-- What passes over a character to stop at ends at the cut in both texts if that is one. -/
theorem cuts_takeThrough (stop : Char → Bool) (hstop : stop c = endsLine c) :
    Cuts c rest (fun as bs => endsLine c = true → as = bs) (takeThrough stop) := by
  refine cuts_takeTo (fun d as bs h hc => congrArg ([d] ++ ·) (h hc)) (fun _ _ _ h => h.inStep)
    fun k k' l h hk hcrossed => ?_
  by_cases hc : endsLine c = true
  · rw [takeTo_of_stop hk (hstop.trans hc)]
    exact .beyond (fun _ => rfl) hcrossed.beyond
  · obtain ⟨p, hstands, hl⟩ := h
    obtain ⟨cs, k₁, hrun⟩ : ∃ cs k₁, takeTo (fun _ k => k) stop k = .ok cs k₁ :=
      exists_takeTo hstands
    rw [hrun]
    exact .beyond (fun h => absurd h hc) ⟨hcrossed.beyond.1, fun h => absurd h hc⟩

section

variable (hc : Text.isBlank c = true)
include hc

/-- A string that is cut off has no closing quote. -/
theorem cuts_stringBody : Cuts c rest Never stringBody := by
  intro k l h
  -- the induction is on what is left of the shorter text, as the loop is
  induction hsize : l.size using Nat.strongRecOn generalizing k l with
  | ind n ih =>
    rw [stringBody_eq]
    refine curtailed_next_bind h (fun d k₁ l₁ hl hboth => ?_) fun _ _ => .starved rfl
    have hlt : l₁.size < n := hsize ▸ size_lt_of_next hl
    dsimp only
    split
    · exact .inStep hboth.inStep
    split
    · refine (cuts_escape hc k₁ l₁ hboth.inStep).bind (fun a k₂ l₂ hl₂ h => ?_)
        fun _ _ _ _ h => h.elim
      have hlt₂ := Nat.lt_of_le_of_lt (shrinks_escape.le_of_ok hl₂) hlt
      exact (ih _ hlt₂ k₂ l₂ h rfl).map _
    · exact (ih _ hlt k₁ l₁ hboth.inStep rfl).map _

omit hc in
/-- Neither has a pattern. -/
theorem cuts_patternBody : Cuts c rest Never patternBody := by
  intro k l h
  induction hsize : l.size using Nat.strongRecOn generalizing k l with
  | ind n ih =>
    rw [patternBody_eq]
    refine curtailed_next_bind h (fun d k₁ l₁ hl hboth => ?_) fun _ _ => .starved rfl
    have hlt : l₁.size < n := hsize ▸ size_lt_of_next hl
    dsimp only
    split
    · exact .inStep hboth.inStep
    split
    · refine curtailed_next_bind hboth.inStep (fun a k₂ l₂ hl₂ hboth => ?_) fun _ _ => .starved rfl
      have hlt₂ := Nat.lt_trans (size_lt_of_next hl₂) hlt
      exact (ih _ hlt₂ k₂ l₂ hboth.inStep rfl).map _
    · exact (ih _ hlt k₁ l₁ hboth.inStep rfl).map _

/-! ### Literals -/

theorem cuts_string : Cuts c rest Never string := .map (cuts_stringBody hc) _

omit hc in
theorem cuts_pattern : Cuts c rest Never pattern := .map cuts_patternBody _

/-- A token may end at the cut, where a blank comes next in the longer text. -/
theorem cuts_token (first : Char) : Cuts c rest Never (token first) :=
  .bind (cuts_takeUntil (by rw [endsToken, hc, Bool.true_or])) fun _ => .pure _

/-- A number may end at the cut. -/
theorem cuts_number (first : Char) : Cuts c rest Never (number first) := by
  refine .bind (cuts_takeUntil (by rw [endsNumber, hc, Bool.true_or])) fun cs => ?_
  dsimp only
  split
  · exact .pure _
  · exact .throw _

omit hc in
/-- A line may end at the cut in the shorter text only; then its text may differ. -/
theorem cuts_line : Cuts c rest (fun a b => endsLine c = true → a = b) line := by
  intro k l h
  refine (cuts_takeThrough endsLine rfl k l h).bind (fun _ _ _ _ h => .inStep h) ?_
  exact fun as bs k l hvalue h => .beyond (fun hc => congrArg String.ofList (hvalue hc)) h

theorem cuts_charLiteral : Cuts c rest Never charLiteral := by
  refine cuts_next_bind (fun d => ?_) fun _ _ _ => .starved rfl
  refine .restrict (.bind (cuts_token hc d) fun text => ?_) fun _ _ h => h.inStep
  split
  · exact .pure _
  · exact .throw _

/-- The first character of a form is found in both texts, or in the shorter one nothing is left;
then the longer one is read on after the cut. -/
theorem nextForm_of_inStep {k l : Cursor} (h : InStep (c :: rest) k l) :
    (∃ d k' l', nextForm k = .ok (some d) k' ∧ nextForm l = .ok (some d) l' ∧
        InStep (c :: rest) k' l') ∨
      ∃ k' l', nextForm k = nextForm k' ∧ nextForm l = .ok none l' ∧ Beyond c rest k' l' := by
  fun_induction nextForm l generalizing k with
  | case1 l e l₁ hl => exact absurd hl (next_ne_error_of_inStep h)
  | case2 l l₁ hl =>
    obtain ⟨rfl, k', hk, hcrossed⟩ := exists_of_next_none_of_inStep h hl
    refine .inr ⟨k', l₁, ?_, rfl, hcrossed.beyond⟩
    rw [nextForm.eq_def k, hk]
    simp only [hc, if_true]
  | case3 l d l₁ hl hd ih =>
    obtain ⟨k', hk, hboth⟩ := exists_of_next_of_inStep h hl
    have hskip : nextForm k = nextForm k' := by
      rw [nextForm.eq_def k, hk]
      simp only [hd, if_true]
    rw [hskip]
    exact ih hboth.inStep
  | case4 l d l₁ hl hd =>
    obtain ⟨k', hk, hboth⟩ := exists_of_next_of_inStep h hl
    refine .inl ⟨d, k', l₁, ?_, rfl, hboth.inStep⟩
    rw [nextForm.eq_def k, hk]
    simp only [hd]
    rfl

end

end Scan

end FormTree
