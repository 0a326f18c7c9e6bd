import FormTree.Proofs.Source.Scanned
import FormTree.Proofs.Source.Span

/-!
# Scanning in a longer text

A text may go on after its end. What has been scanned in the shorter text is scanned in the longer
one just as well, if scanning stopped before the end or if what comes there does not change where it
stops: a token or number goes on to the end unless something comes that ends it, a line unless
nothing comes, and a string or pattern has its own end.
-/

namespace FormTree

/-- Whether a place has the same ahead as another one, and `ext` after that. -/
def Spot.IsExtended (ext : List Char) (p p' : Spot) : Prop := p'.ahead = p.ahead ++ ext

namespace Spot

variable {ext cs : List Char} {p p' q : Spot}

/-- Characters that are passed in a text are passed in an extended one. -/
theorem IsExtended.exists_takes (h : IsExtended ext p p') (hp : p.Takes cs q) :
    ∃ q', p'.Takes cs q' ∧ IsExtended ext q q' := by
  refine Spot.exists_takes ?_
  rw [h, hp.1, List.append_assoc]

theorem IsExtended.nil (p : Spot) : IsExtended [] p p := (List.append_nil _).symm

/-- What comes after a place that is not at the end comes after it in a longer text. -/
theorem IsExtended.head?_eq (h : IsExtended ext p p') (hp : p.ahead ≠ []) :
    p'.ahead.head? = p.ahead.head? := by
  rw [h, List.head?_append, List.head?_eq_some_head hp, Option.some_or]

/-- Between two places nothing is lost: where nothing is ahead of the first, nothing is ahead of the
second. -/
theorem Takes.ahead_eq_nil (h : p.Takes cs q) (hp : p.ahead = []) : q.ahead = [] := by
  have hcs : cs ++ q.ahead = [] := h.1.symm.trans hp
  exact (List.append_eq_nil_iff.1 hcs).2

end Spot

namespace Scan

open Cursor

variable {α β : Type} {edge : List Char → Prop}

/-- Whether a scanning function does in a longer text what it does in a shorter one. Where it stops
at the end of the shorter text, what comes there in the longer one has to satisfy `edge`. -/
structure Carries (edge : List Char → Prop) (m : Scan α) : Prop where
  keeps : Keeps m
  exists_of_eq_ok : ∀ {k l k' : Cursor} {p q p' : Spot} {a : α} {ext : List Char},
    k.StandsAt p → m k = .ok a l → l.StandsAt q → k'.StandsAt p' → p.IsExtended ext p' →
      (q.ahead = [] → edge ext) → ∃ l' q', m k' = .ok a l' ∧ l'.StandsAt q' ∧ q.IsExtended ext q'

namespace Carries

theorem pure (a : α) : Carries edge (Pure.pure a : Scan α) := by
  refine ⟨.pure a, fun hk hrun hl hk' hp _ => ?_⟩
  cases hrun
  rw [← hk.unique hl]
  exact ⟨_, _, rfl, hk', hp⟩

theorem throw (e : Cause) : Carries edge (MonadExcept.throw e : Scan α) :=
  ⟨.throw e, fun _ hrun => nomatch hrun⟩

theorem bind {m : Scan α} {f : α → Scan β} (hm : Carries edge m) (hf : ∀ a, Carries edge (f a)) :
    Carries edge (m >>= f) := by
  refine ⟨.bind hm.keeps fun a => (hf a).keeps, fun hk hrun hu hk' hp hedge => ?_⟩
  obtain ⟨a, l, hml, hfu⟩ := bind_eq_ok.1 hrun
  obtain ⟨cs, r, -, hr⟩ := hm.keeps.of_eq_ok hk hml
  obtain ⟨ds, q, hrq, hq⟩ := (hf a).keeps.of_eq_ok hr hfu
  obtain rfl := hq.unique hu
  -- where the first run stops at the end of the text, so does the second
  obtain ⟨l', r', hml', hr', hext⟩ := hm.exists_of_eq_ok hk hml hr hk' hp fun h =>
    hedge (hrq.ahead_eq_nil h)
  obtain ⟨u', q', hfu', hq', hext⟩ := (hf a).exists_of_eq_ok hr hfu hu hr' hext hedge
  exact ⟨u', q', bind_eq_ok.2 ⟨a, l', hml', hfu'⟩, hq', hext⟩

theorem map {m : Scan α} (hm : Carries edge m) (f : α → β) : Carries edge (f <$> m) :=
  bind hm fun _ => pure _

theorem ite {c : Prop} [Decidable c] {m n : Scan α} (hm : Carries edge m) (hn : Carries edge n) :
    Carries edge (if c then m else n) := by
  split
  · exact hm
  · exact hn

end Carries

/-! ### Single characters -/

section

variable {k l k' : Cursor} {p p' : Spot} {ext : List Char} {c : Char}

/-- A character that is delivered in the shorter text is delivered in the longer one. -/
theorem exists_of_next_of_isExtended (hk : k.StandsAt p) (hrun : next k = .ok (some c) l)
    (hk' : k'.StandsAt p') (hp : p.IsExtended ext p') :
    ∃ q l' q', p.Takes [c] q ∧ l.StandsAt q ∧ l.held = none ∧ p'.Takes [c] q' ∧
      next k' = .ok (some c) l' ∧ l'.StandsAt q' ∧ l'.held = none ∧ q.IsExtended ext q' := by
  obtain ⟨q, hq, hl, hheld⟩ := exists_of_next hk hrun
  obtain ⟨q', hq', hext⟩ := hp.exists_takes hq
  obtain ⟨l', hnext, hl', hheld'⟩ := next_of_standsAt hk' hq'
  exact ⟨q, l', q', hq, hl, hheld, hq', hnext, hl', hheld', hext⟩

end

theorem carries_inString : Carries edge inString := by
  refine ⟨keeps_inString, fun {k l k' p q p' a ext} hk hrun hl hk' hp _ => ?_⟩
  obtain ⟨first, l₁, hnext, hrun⟩ := bind_eq_ok.1 hrun
  rcases first with - | c
  · cases hrun
  · cases hrun
    obtain ⟨r, l', q', -, hr, -, -, hnext', hl', -, hext⟩ :=
      exists_of_next_of_isExtended hk hnext hk' hp
    obtain rfl := hr.unique hl
    exact ⟨l', q', bind_eq_ok.2 ⟨some _, l', hnext', rfl⟩, hl', hext⟩

/-! ### Escapes -/

theorem carries_digits (radix more count code : Nat) :
    Carries (· = []) (digits radix more count code) := by
  induction more generalizing count code with
  | zero => exact .pure _
  | succ more ih =>
    refine ⟨keeps_digits _ _ _ _, fun {k l k' p q p' a ext} hk hrun hl hk' hp hedge => ?_⟩
    obtain ⟨c, l₁, hnext, hrun⟩ := bind_eq_ok.1 hrun
    rcases c with - | c
    · cases hrun
      obtain ⟨hnil, rfl⟩ := eq_of_next_none hk hnext
      obtain rfl := hk.unique hl
      have hnil' : p'.ahead = [] := by rw [hp, hnil, hedge hnil]; rfl
      exact ⟨k', p', bind_eq_ok.2 ⟨none, k', next_of_standsAt_nil hk' hnil', rfl⟩, hk', hp⟩
    · obtain ⟨r, l', q', hr, hl₁, hheld, hq', hnext', hl', hheld', hext⟩ :=
        exists_of_next_of_isExtended hk hnext hk' hp
      dsimp only at hrun
      by_cases hc : endsNumber c = true
      -- what ends the digits is handed back in both texts
      · rw [if_pos hc] at hrun
        cases hrun
        obtain rfl := (hl₁.handBack hheld hr).unique hl
        refine ⟨l'.handBack c, p', bind_eq_ok.2 ⟨some c, l', hnext', ?_⟩,
          hl'.handBack hheld' hq', hp⟩
        dsimp only
        rw [if_pos hc]
        rfl
      · rw [if_neg hc] at hrun
        rcases hd : Text.digitValue? radix c with - | d
        · rw [hd] at hrun
          cases hrun
        · rw [hd] at hrun
          obtain ⟨u', t', hrun', ht', hext'⟩ :=
            (ih _ _).exists_of_eq_ok hl₁ hrun hl hl' hext hedge
          refine ⟨u', t', bind_eq_ok.2 ⟨some c, l', hnext', ?_⟩, ht', hext'⟩
          dsimp only
          rw [if_neg hc, hd]
          exact hrun'

theorem carries_digitsFrom (first : Char) (radix length : Nat) :
    Carries (· = []) (digitsFrom first radix length) := by
  unfold digitsFrom
  cases Text.digitValue? radix first
  · exact .throw _
  · exact carries_digits _ _ _ _

theorem carries_codeUnit : Carries (· = []) codeUnit :=
  .bind carries_inString fun _ => .bind (carries_digitsFrom _ _ _) fun _ =>
    .ite (.pure _) (.throw _)

theorem carries_lowUnit (high : Nat) : Carries (· = []) (lowUnit high) := by
  refine .bind carries_inString fun _ => .ite ?_ (.throw _)
  refine .bind carries_inString fun _ => .ite ?_ (.throw _)
  exact .bind carries_codeUnit fun _ => .ite (.pure _) (.throw _)

theorem carries_scalarFrom (unit n : Nat) : Carries edge (scalarFrom unit n) := by
  unfold scalarFrom
  cases scalar? n
  · exact .throw _
  · exact .pure _

theorem carries_unicodeEscape : Carries (· = []) unicodeEscape :=
  .bind carries_codeUnit fun _ => .ite
    (.bind (carries_lowUnit _) fun _ => carries_scalarFrom _ _) (carries_scalarFrom _ _)

theorem carries_escape : Carries (· = []) escape := by
  refine .bind carries_inString fun c => ?_
  split
  case h_8 => exact carries_unicodeEscape
  case h_9 =>
    exact .ite (.bind (carries_digitsFrom _ _ _) fun _ => .ite (.pure _) (.throw _)) (.throw _)
  all_goals exact .pure _

/-! ### Loops -/

section

variable {last : Char → Cursor → Cursor} {stop : Char → Bool}

/-- What is taken in the shorter text is taken in the longer one, if whatever is done about the
character to stop at leaves corresponding cursors, and if a character that comes at the end of the
shorter text is one to stop at and is handed back. -/
theorem carries_takeTo (hkeeps : Keeps (takeTo last stop))
    (hlast : ∀ {c k k' p p' q q' ext}, Cursor.StandsAt k q → k.held = none → Spot.Takes p [c] q →
      Cursor.StandsAt k' q' → k'.held = none → Spot.Takes p' [c] q' → q.IsExtended ext q' →
        p.IsExtended ext p' → ∃ r r', (last c k).StandsAt r ∧ (last c k').StandsAt r' ∧
          r.IsExtended ext r')
    (hedge : ∀ {c ext}, edge (c :: ext) → stop c = true ∧ ∀ {k p q}, Cursor.StandsAt k q →
      k.held = none → Spot.Takes p [c] q → (last c k).StandsAt p) :
    Carries edge (takeTo last stop) := by
  refine ⟨hkeeps, fun {k l k' p q p' a ext} hk hrun hl hk' hp hq => ?_⟩
  fun_induction takeTo last stop k generalizing p k' p' a with
  | case1 k e k₁ hnext => cases hrun
  | case2 k k₁ hnext =>
    cases hrun
    obtain ⟨hnil, rfl⟩ := eq_of_next_none hk hnext
    obtain rfl := hk.unique hl
    -- the shorter text ends here: the longer one does too, or has a character to stop at
    rcases ext with - | ⟨c, ext⟩
    · have hnil' : p'.ahead = [] := by rw [hp, hnil]; rfl
      exact ⟨k', p', by rw [takeTo.eq_def, next_of_standsAt_nil hk' hnil'], hk', hp⟩
    · have hahead : p'.ahead = c :: ext := by rw [hp, hnil]; rfl
      obtain ⟨hc, hback⟩ := hedge (hq hnil)
      obtain ⟨l', hnext', hl', hheld'⟩ := next_of_standsAt hk' (Spot.takes_of_ahead hahead)
      exact ⟨last c l', p', takeTo_of_stop hnext' hc, hback hl' hheld' (Spot.takes_of_ahead hahead),
        hp⟩
  | case3 k c k₁ hnext hc =>
    cases hrun
    obtain ⟨r, l', q', hr, hl₁, hheld, hq', hnext', hl', hheld', hext⟩ :=
      exists_of_next_of_isExtended hk hnext hk' hp
    obtain ⟨t, t', ht, ht', hext'⟩ := hlast hl₁ hheld hr hl' hheld' hq' hext hp
    obtain rfl := ht.unique hl
    exact ⟨last c l', t', takeTo_of_stop hnext' hc, ht', hext'⟩
  | case4 k c k₁ hnext hc ih =>
    obtain ⟨cs, hcs, rfl⟩ := prepend_eq_ok.1 hrun
    obtain ⟨r, l', q', -, hl₁, -, -, hnext', hl', -, hext⟩ :=
      exists_of_next_of_isExtended hk hnext hk' hp
    obtain ⟨u', t', hrun', ht', hext'⟩ := ih hl₁ hcs hl' hext
    exact ⟨u', t', by rw [takeTo_of_next hnext' hc, hrun']; rfl, ht', hext'⟩

end

/-- What is taken up to a stop is the same if the extension begins with one. -/
theorem carries_takeUntil (stop : Char → Bool) :
    Carries (fun ext => ∀ c ∈ ext.head?, stop c = true) (takeUntil stop) := by
  refine carries_takeTo (keeps_takeUntil stop) ?_ ?_
  · intro c k k' p p' q q' ext hk hheld hq hk' hheld' hq' _ hp
    exact ⟨p, p', hk.handBack hheld hq, hk'.handBack hheld' hq', hp⟩
  · intro c ext h
    exact ⟨h c rfl, fun hk hheld hq => hk.handBack hheld hq⟩

theorem carries_takeThrough (stop : Char → Bool) : Carries (· = []) (takeThrough stop) := by
  refine carries_takeTo (keeps_takeThrough stop) ?_ ?_
  · intro c k k' p p' q q' ext hk _ _ hk' _ _ hq _
    exact ⟨q, q', hk, hk', hq⟩
  · intro c ext h
    cases h

/-- A string ends at its quote, whatever comes after that. -/
theorem carries_stringBody : Carries (fun _ => True) stringBody := by
  refine ⟨keeps_stringBody, fun {k l k' p q p' a ext} hk hrun hl hk' hp _ => ?_⟩
  fun_induction stringBody k generalizing p k' p' a with
  | case1 | case2 | case5 => cases hrun
  | case3 k c k₁ hnext hc =>
    cases hrun
    obtain ⟨r, l', q', -, hr, -, -, hnext', hl', -, hext⟩ :=
      exists_of_next_of_isExtended hk hnext hk' hp
    obtain rfl := hr.unique hl
    exact ⟨l', q', stringBody_of_quote hnext' hc, hl', hext⟩
  | case4 k c k₁ hnext hc hb d k₂ he ih =>
    obtain ⟨cs, hcs, rfl⟩ := prepend_eq_ok.1 hrun
    obtain ⟨r, l', q', -, hl₁, -, -, hnext', hl', -, hext⟩ :=
      exists_of_next_of_isExtended hk hnext hk' hp
    obtain ⟨es, t, -, ht⟩ := keeps_escape.of_eq_ok hl₁ he
    -- the closing quote is still ahead, so the escape does not reach the end
    have hahead : t.ahead ≠ [] := by
      intro hnil
      rw [stringBody.eq_def, next_of_standsAt_nil ht hnil] at hcs
      cases hcs
    obtain ⟨m', t', he', ht', hext'⟩ :=
      carries_escape.exists_of_eq_ok hl₁ he ht hl' hext fun h => absurd h hahead
    obtain ⟨u', v', hrun', hv', hext''⟩ := ih ht hcs ht' hext'
    exact ⟨u', v', by rw [stringBody_of_escape hnext' hc hb he', hrun']; rfl, hv', hext''⟩
  | case6 k c k₁ hnext hc hb ih =>
    obtain ⟨cs, hcs, rfl⟩ := prepend_eq_ok.1 hrun
    obtain ⟨r, l', q', -, hl₁, -, -, hnext', hl', -, hext⟩ :=
      exists_of_next_of_isExtended hk hnext hk' hp
    obtain ⟨u', t', hrun', ht', hext'⟩ := ih hl₁ hcs hl' hext
    exact ⟨u', t', by rw [stringBody_of_plain hnext' hc hb, hrun']; rfl, ht', hext'⟩

/-- So does a pattern. -/
theorem carries_patternBody : Carries (fun _ => True) patternBody := by
  refine ⟨keeps_patternBody, fun {k l k' p q p' a ext} hk hrun hl hk' hp _ => ?_⟩
  fun_induction patternBody k generalizing p k' p' a with
  | case1 | case2 | case4 | case5 => cases hrun
  | case3 k c k₁ hnext hc =>
    cases hrun
    obtain ⟨r, l', q', -, hr, -, -, hnext', hl', -, hext⟩ :=
      exists_of_next_of_isExtended hk hnext hk' hp
    obtain rfl := hr.unique hl
    exact ⟨l', q', patternBody_of_quote hnext' hc, hl', hext⟩
  | case6 k c k₁ hnext hc hb d k₂ hd ih =>
    obtain ⟨cs, hcs, rfl⟩ := prepend_eq_ok.1 hrun
    obtain ⟨r, l', q', -, hl₁, -, -, hnext', hl', -, hext⟩ :=
      exists_of_next_of_isExtended hk hnext hk' hp
    obtain ⟨t, m', t', -, hl₂, -, -, hd', hm', -, hext'⟩ :=
      exists_of_next_of_isExtended hl₁ hd hl' hext
    obtain ⟨u', v', hrun', hv', hext''⟩ := ih hl₂ hcs hm' hext'
    exact ⟨u', v', by rw [patternBody_of_backslash hnext' hc hb hd', hrun']; rfl, hv', hext''⟩
  | case7 k c k₁ hnext hc hb ih =>
    obtain ⟨cs, hcs, rfl⟩ := prepend_eq_ok.1 hrun
    obtain ⟨r, l', q', -, hl₁, -, -, hnext', hl', -, hext⟩ :=
      exists_of_next_of_isExtended hk hnext hk' hp
    obtain ⟨u', t', hrun', ht', hext'⟩ := ih hl₁ hcs hl' hext
    exact ⟨u', t', by rw [patternBody_of_plain hnext' hc hb, hrun']; rfl, ht', hext'⟩

/-! ### Literals -/

theorem carries_string : Carries (fun _ => True) string := .map carries_stringBody _

theorem carries_pattern : Carries (fun _ => True) pattern := .map carries_patternBody _

theorem carries_token (first : Char) :
    Carries (fun ext => ∀ c ∈ ext.head?, endsToken c = true) (token first) :=
  .bind (carries_takeUntil _) fun _ => .pure _

theorem carries_number (first : Char) :
    Carries (fun ext => ∀ c ∈ ext.head?, endsNumber c = true) (number first) := by
  refine .bind (carries_takeUntil _) fun rest => ?_
  dsimp only
  split
  · exact .pure _
  · exact .throw _

/-- A line is the same only if nothing is added to it. -/
theorem carries_line : Carries (· = []) line :=
  .bind (carries_takeThrough _) fun _ => .pure _

theorem carries_charForToken (c : Char) :
    Carries (fun ext => ∀ c ∈ ext.head?, endsToken c = true) (do
      let text ← token c
      match charForToken text with
      | .ok c => return (text, c)
      | .error e => throw e : Scan (String × Char)) := by
  refine .bind (carries_token c) fun text => ?_
  split
  · exact .pure _
  · exact .throw _

/-- The token of a character literal is the same if what is added ends tokens. -/
theorem carries_charLiteral :
    Carries (fun ext => ∀ c ∈ ext.head?, endsToken c = true) charLiteral := by
  refine ⟨keeps_charLiteral, fun {k l k' p q p' a ext} hk hrun hl hk' hp hedge => ?_⟩
  obtain ⟨c, l₁, hnext, hrun⟩ := bind_eq_ok.1 hrun
  rcases c with - | c
  · cases hrun
  · obtain ⟨r, l', q', -, hl₁, -, -, hnext', hl', -, hext⟩ :=
      exists_of_next_of_isExtended hk hnext hk' hp
    obtain ⟨u', t', hrun', ht', hext'⟩ :=
      (carries_charForToken c).exists_of_eq_ok hl₁ hrun hl hl' hext hedge
    exact ⟨u', t', bind_eq_ok.2 ⟨some c, l', hnext', hrun'⟩, ht', hext'⟩

/-! ### What a function takes and gives -/

/-- What is taken and given in the shorter text is taken and given in the longer one. -/
theorem Gives.carry {m : Scan α} {a : α} {p p' q : Spot} {ext : List Char} (hm : Carries edge m)
    (h : Gives m p a q) (hp : p.IsExtended ext p') (hedge : q.ahead = [] → edge ext) :
    ∃ q', Gives m p' a q' ∧ q.IsExtended ext q' := by
  obtain ⟨-, k, l, hk, hrun, hl⟩ := h
  obtain ⟨k', hk'⟩ := exists_standsAt p'
  obtain ⟨l', q', hrun', hl', hext⟩ := hm.exists_of_eq_ok hk hrun hl hk' hp hedge
  -- any cursor at the place will do, since scanning sees only what is ahead
  obtain ⟨cs, r, hr, hlr⟩ := hm.keeps.of_eq_ok hk' hrun'
  obtain rfl := hlr.unique hl'
  exact ⟨r, ⟨⟨cs, hr⟩, k', l', hk', hrun', hl'⟩, hext⟩

end Scan

end FormTree
