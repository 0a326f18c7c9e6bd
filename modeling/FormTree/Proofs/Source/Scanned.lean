import FormTree.Proofs.Form.Legal
import FormTree.Proofs.Source.Pending

/-!
# What scanning gives

The values that scanning functions give are as their literals require: nothing in a token ends it,
no line has a line break, and numbers are normal.
-/

namespace FormTree

variable {ε σ α β : Type}

/-- A composed run succeeds just if its parts do, one after the other. -/
theorem bind_eq_ok {m : EStateM ε σ α} {f : α → EStateM ε σ β} {s u : σ} {b : β} :
    (m >>= f) s = .ok b u ↔ ∃ a t, m s = .ok a t ∧ f a t = .ok b u := by
  change EStateM.bind m f s = _ ↔ _
  rw [EStateM.bind]
  cases m s with
  | ok a t =>
    constructor
    · exact fun h => ⟨a, t, rfl, h⟩
    · rintro ⟨_, _, h, h'⟩
      cases h
      exact h'
  | error e t => simp

theorem map_eq_ok {m : EStateM ε σ α} {f : α → β} {s u : σ} {b : β} :
    (f <$> m) s = .ok b u ↔ ∃ a, m s = .ok a u ∧ f a = b := by
  change EStateM.map f m s = _ ↔ _
  rw [EStateM.map]
  cases m s with
  | ok a t =>
    constructor
    · intro h
      cases h
      exact ⟨a, rfl, rfl⟩
    · rintro ⟨_, h, rfl⟩
      cases h
      rfl
  | error e t => simp

/-- What was scanned before is put in front of what is scanned after it. -/
theorem prepend_eq_ok {cs ds : List Char} {r : EStateM.Result Cause Cursor (List Char)}
    {k : Cursor} : Cursor.prepend cs r = .ok ds k ↔ ∃ es, r = .ok es k ∧ ds = cs ++ es := by
  cases r with
  | ok es k' =>
    constructor
    · intro h
      cases h
      exact ⟨es, rfl, rfl⟩
    · rintro ⟨_, h, rfl⟩
      cases h
      rfl
  | error e k' => simp [Cursor.prepend]

namespace Cursor

/-- Nothing that is taken satisfies the condition to stop. -/
theorem all_of_takeTo {last : Char → Cursor → Cursor} {stop : Char → Bool} {k k' : Cursor}
    {cs : List Char} (h : takeTo last stop k = .ok cs k') : cs.all (!stop ·) = true := by
  fun_induction takeTo last stop k generalizing cs with
  | case1 k e k₁ hk => cases h
  | case2 k k₁ hk => cases h; rfl
  | case3 k c k₁ hk hc => cases h; rfl
  | case4 k c k₁ hk hc ih =>
    obtain ⟨rest, hrest, rfl⟩ := prepend_eq_ok.1 h
    simp [hc, ih hrest]

/-- If anything is taken, it begins with the next character. -/
theorem head?_of_takeTo {last : Char → Cursor → Cursor} {stop : Char → Bool} {k k₁ k' : Cursor}
    {c : Option Char} {cs : List Char} (hk : next k = .ok c k₁)
    (h : takeTo last stop k = .ok cs k') : cs.head? = none ∨ cs.head? = c := by
  rw [takeTo.eq_def, hk] at h
  rcases c with - | c
  · cases h
    exact .inl rfl
  · dsimp only at h
    split at h
    · cases h
      exact .inl rfl
    · obtain ⟨rest, -, rfl⟩ := prepend_eq_ok.1 h
      exact .inr rfl

/-- A character that begins a form is no blank. -/
theorem isBlank_of_nextForm {k k' : Cursor} {c : Char} (h : nextForm k = .ok (some c) k') :
    Text.isBlank c = false := by
  fun_induction nextForm k with
  | case1 k e k₁ hk => cases h
  | case2 k k₁ hk => cases h
  | case3 k d k₁ hk hd ih => exact ih h
  | case4 k d k₁ hk hd =>
    cases h
    exact Bool.eq_false_iff.2 hd

/-- A character handed back is the next one. -/
theorem next_handBack (k : Cursor) (c : Char) :
    ∃ k', next (k.handBack c) = .ok (some c) k' :=
  ⟨_, rfl⟩

/-- The end of input is found again. -/
theorem next_of_next_none {k k' : Cursor} (h : next k = .ok none k') : next k' = .ok none k' := by
  have hk := h
  rw [next_eq] at h
  split at h <;> cases h
  exact hk

end Cursor

namespace Scan

open Cursor

/-- A token is its first character and what follows up to what ends it. -/
theorem token_eq_ok {first : Char} {k k' : Cursor} {text : String} :
    token first k = .ok text k' ↔
      ∃ rest, takeUntil endsToken k = .ok rest k' ∧ text = String.ofList (first :: rest) := by
  rw [token, bind_eq_ok]
  constructor
  · rintro ⟨rest, k₁, h, h'⟩
    cases h'
    exact ⟨rest, h, rfl⟩
  · rintro ⟨rest, h, rfl⟩
    exact ⟨rest, k', h, rfl⟩

/-- A token begins with its first character, and nothing after that ends it. -/
theorem toList_of_token {first : Char} {k k' : Cursor} {text : String}
    (h : token first k = .ok text k') :
    ∃ rest, text.toList = first :: rest ∧ rest.all (!endsToken ·) = true := by
  obtain ⟨rest, hrest, rfl⟩ := token_eq_ok.1 h
  exact ⟨rest, String.toList_ofList, all_of_takeTo hrest⟩

theorem all_of_line {k k' : Cursor} {text : String} (h : line k = .ok text k') :
    text.toList.all (!endsLine ·) = true := by
  obtain ⟨cs, k₁, hcs, h⟩ := bind_eq_ok.1 h
  cases h
  rw [String.toList_ofList]
  exact all_of_takeTo hcs

/-- What is scanned as the body of a pattern is one. -/
theorem isPatternBody_of_patternBody {k k' : Cursor} {cs : List Char}
    (h : patternBody k = .ok cs k') : isPatternBody cs = true := by
  fun_induction patternBody k generalizing cs with
  | case1 | case2 | case4 | case5 => cases h
  | case3 => cases h; rfl
  | case6 k c k₁ hk hquote hbackslash d k₂ hd ih =>
    obtain ⟨rest, hrest, rfl⟩ := prepend_eq_ok.1 h
    obtain rfl : c = '\\' := by simpa using hbackslash
    exact (ih hrest : isPatternBody rest = true)
  | case7 k c k₁ hk hquote hbackslash ih =>
    obtain ⟨rest, hrest, rfl⟩ := prepend_eq_ok.1 h
    have hrest := ih hrest
    rw [List.singleton_append, isPatternBody.eq_def]
    split <;> simp_all

theorem isPatternBody_of_pattern {k k' : Cursor} {source : String}
    (h : pattern k = .ok source k') : isPatternBody source.toList = true := by
  obtain ⟨cs, hcs, rfl⟩ := map_eq_ok.1 h
  rw [String.toList_ofList]
  exact isPatternBody_of_patternBody hcs

/-- A character literal is a token that denotes its character. -/
theorem isCharToken_of_charLiteral {k k' : Cursor} {text : String} {c : Char}
    (h : charLiteral k = .ok (text, c) k') :
    Token.isCharToken text.toList = true ∧ charForToken text = .ok c := by
  obtain ⟨first, k₁, -, h⟩ := bind_eq_ok.1 h
  rcases first with - | first
  · cases h
  · obtain ⟨text', k₂, htext, h⟩ := bind_eq_ok.1 h
    rcases hc : charForToken text' with e | d
    · rw [hc] at h
      cases h
    · rw [hc] at h
      cases h
      obtain ⟨rest, hrest, hall⟩ := toList_of_token htext
      rw [hrest]
      exact ⟨hall, hc⟩

end Scan

end FormTree
