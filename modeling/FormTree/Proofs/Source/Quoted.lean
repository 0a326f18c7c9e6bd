import FormTree.Proofs.Form.Legal
import FormTree.Proofs.Source.Deliver
import FormTree.Proofs.Text.Hex

/-!
# Scanning between quotes

How the bodies of strings and patterns are scanned, step by step: a pattern is its body as it is,
and in a string a code of four hexadecimal digits is the character with this code. A character
literal is a token.
-/

namespace FormTree.Scan

open Cursor Text

variable {total : Bool} {rest : List Char}

/-! ### Patterns -/

/-- A backslash is the last character of a pattern, or it protects the character after it. -/
theorem ne_backslash {c : Char} {cs : List Char} (hlast : c = '\\' → cs = [] → False)
    (hprotects : ∀ d rest, c = '\\' → cs = d :: rest → False) : ¬ (c == '\\') = true := by
  intro hc
  rcases cs with - | ⟨d, cs⟩
  · exact hlast (eq_of_beq hc) rfl
  · exact hprotects d cs (eq_of_beq hc) rfl

/-- The body of a pattern is scanned up to the quote that ends it, escapes and all. -/
theorem triple_patternBody {cs : List Char} (h : isPatternBody cs = true) :
    Triple total (At · (cs ++ '"' :: rest)) (patternBody : Scan (List Char)) fun ds k =>
      ds = cs ∧ k.At rest := by
  fun_induction isPatternBody cs with
  | case1 =>
    rw [patternBody_eq]
    exact .bind_eq (triple_next '"') (.pure fun k hk => ⟨rfl, hk.1⟩)
  | case2 | case3 => cases h
  | case4 d cs ih =>
    rw [patternBody_eq]
    refine .bind_eq (triple_next '\\') (.bind_eq (triple_next d).past ?_)
    refine .map (ih h).past ?_
    rintro _ k ⟨rfl, hk⟩
    exact ⟨rfl, hk⟩
  | case5 c cs hquote hlast hbackslash ih =>
    have hc : ¬ (c == '"') = true := fun hc => hquote (eq_of_beq hc)
    rw [patternBody_eq]
    refine .bind_eq (triple_next c) (.ite_false hc ?_)
    refine .ite_false (ne_backslash hlast hbackslash) ?_
    refine .map (ih h).past ?_
    rintro _ k ⟨rfl, hk⟩
    exact ⟨rfl, hk⟩

/-- A pattern runs up to the quote after it. -/
theorem triple_pattern {source : String} (h : isPatternBody source.toList = true) :
    Triple total (At · (source.toList ++ '"' :: rest)) pattern fun a k =>
      a = source ∧ k.At rest := by
  refine .map (triple_patternBody h) ?_
  rintro _ k ⟨rfl, hk⟩
  exact ⟨String.ofList_toList, hk⟩

/-! ### Escapes -/

theorem triple_inString (c : Char) :
    Triple total (At · (c :: rest)) inString fun a k => a = c ∧ k.Past rest :=
  .bind_eq (triple_next c) (.pure fun _ hk => ⟨rfl, hk⟩)

theorem triple_next_nil : Triple total (At · []) next fun a k => a = none ∧ k.At [] :=
  .of_ok fun k hk => ⟨none, k, next_of_at_nil hk, rfl, hk⟩

section

variable {radix more : Nat} {cs : List Char}

/-- Digits are taken, until there may be no more of them or there are none. -/
theorem triple_digits (h : cs.all (isDigitIn radix) = true) (hle : cs.length ≤ more)
    (hend : cs.length = more ∨ ∀ c ∈ rest.head?, endsNumber c = true) (count code : Nat) :
    Triple total (At · (cs ++ rest)) (digits radix more count code) fun a k =>
      a = (count + cs.length,
        (cs.map fun c => (digitValue? radix c).getD 0).foldl (fun n d => n * radix + d) code) ∧
      k.At rest := by
  induction cs generalizing more count code with
  | nil =>
    rcases more with - | more
    · exact .pure fun k hk => ⟨rfl, hk⟩
    · have hends : ∀ c ∈ rest.head?, endsNumber c = true := hend.resolve_left nofun
      rcases rest with - | ⟨c, rest⟩
      · exact .bind_eq triple_next_nil (.pure fun k hk => ⟨rfl, hk⟩)
      · refine .bind_eq (triple_next c) ?_
        dsimp only
        rw [if_pos (hends c rfl)]
        exact fun k hk => ⟨rfl, hk.handBack c⟩
  | cons c cs ih =>
    obtain ⟨hc, hcs⟩ := Bool.and_eq_true_iff.1 h
    obtain ⟨d, hd⟩ := Option.isSome_iff_exists.1 hc
    rcases more with - | more
    · cases hle
    · refine .bind_eq (triple_next c) ?_
      dsimp only
      rw [endsNumber_of_digitValue? hd, hd]
      refine (ih hcs (Nat.le_of_succ_le_succ hle) (hend.imp_left Nat.succ.inj) (count + 1)
        (code * radix + d)).mono (fun _ hk => hk.1) ?_
      rintro _ k ⟨rfl, hk⟩
      refine ⟨?_, hk⟩
      simp [hd, Nat.add_assoc, Nat.add_comm 1]

/-- Digits are scanned up to their greatest length, or to what ends a number. -/
theorem triple_digitsFrom {first : Char} {length : Nat} (h : isNumeral radix (first :: cs) = true)
    (hle : cs.length < length)
    (hend : cs.length + 1 = length ∨ ∀ c ∈ rest.head?, endsNumber c = true) :
    Triple total (At · (cs ++ rest)) (digitsFrom first radix length) fun a k =>
      a = (cs.length + 1, Numeral.value radix (first :: cs)) ∧ k.At rest := by
  obtain ⟨hfirst, hcs⟩ := Bool.and_eq_true_iff.1 (Bool.and_eq_true_iff.1 h).2
  obtain ⟨d, hd⟩ := Option.isSome_iff_exists.1 hfirst
  rw [digitsFrom, hd]
  refine (triple_digits hcs (by omega) (hend.imp_left fun h => by omega) 1 d).mono
    (fun _ hk => hk) ?_
  rintro _ k ⟨rfl, hk⟩
  refine ⟨?_, hk⟩
  simp [Numeral.value, Numeral.ofDigits, hd, Nat.add_comm 1]

/-- Four hexadecimal digits are a code unit. -/
theorem triple_codeUnit (hlength : cs.length = 4) (h : isNumeral 16 cs = true) :
    Triple total (At · (cs ++ rest)) codeUnit fun a k => a = Numeral.value 16 cs ∧ k.At rest := by
  rcases cs with - | ⟨first, cs⟩
  · cases hlength
  · have hfour : cs.length + 1 = 4 := hlength
    refine .bind_eq (triple_inString first) (.bind_eq
      (triple_digitsFrom h (by omega) (.inl hfour)).past ?_)
    exact .ite_true hfour (.pure fun k hk => ⟨rfl, hk⟩)

end

/-- The code of a character is that of a scalar value. -/
theorem scalar?_toNat (c : Char) : scalar? c.toNat = some c := by
  have hvalid : c.toNat.isValidChar := c.valid
  rw [scalar?, dif_pos hvalid]
  rfl

theorem scalarFrom_toNat (n : Nat) (c : Char) : scalarFrom n c.toNat = pure c := by
  rw [scalarFrom, scalar?_toNat]

/-- The code of a character is read as the character. -/
theorem triple_unicodeEscape {c : Char} {digits : List Char} (hlength : digits.length = 4)
    (h : isNumeral 16 digits = true) (hvalue : Numeral.value 16 digits = c.toNat) :
    Triple total (At · (digits ++ rest)) unicodeEscape fun a k => a = c ∧ k.At rest := by
  have hhigh : ¬ (decide (0xD800 ≤ c.toNat) && decide (c.toNat ≤ 0xDBFF)) = true := by
    have hvalid : c.toNat < 0xD800 ∨ 0xDFFF < c.toNat ∧ c.toNat < 0x110000 := c.valid
    simp only [Bool.and_eq_true, decide_eq_true_eq]
    omega
  refine .bind_eq (triple_codeUnit hlength h) ?_
  rw [hvalue]
  refine .ite_false hhigh ?_
  rw [scalarFrom_toNat]
  exact .pure fun k hk => ⟨rfl, hk⟩

/-! ### Character literals -/

/-- A character literal is a token. -/
theorem triple_charLiteral {token : String} {c : Char}
    (htoken : Token.isCharToken token.toList = true) (hread : charForToken token = .ok c)
    (hrest : ∀ d ∈ rest.head?, endsToken d = true) :
    Triple total (At · (token.toList ++ rest)) charLiteral fun a k =>
      a = (token, c) ∧ k.At rest := by
  rcases hcs : token.toList with - | ⟨first, cs⟩
  · rw [hcs] at htoken
    cases htoken
  · have htext : String.ofList (first :: cs) = token := by rw [← hcs, String.ofList_toList]
    have hplain : cs.all (!endsToken ·) = true := by rwa [hcs] at htoken
    refine .bind_eq (triple_next first) ?_
    refine .bind_eq (triple_token hplain hrest).past ?_
    rw [htext, hread]
    exact .pure fun k hk => ⟨rfl, hk⟩

end FormTree.Scan
