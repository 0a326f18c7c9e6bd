import FormTree.Reader.Scan

/-!
# Strings, patterns and character literals

The bodies of string and pattern literals run to the closing quote. In a string a backslash begins
an escape; in a pattern the backslash and the character after it are kept as they are, so that a
quote can be written. A character literal is a token that names its character.
-/

namespace FormTree.Scan

open Cursor Text

/-- The characters of a string up to its closing quote, which is passed over. -/
def stringBody (k : Cursor) : EStateM.Result Cause Cursor (List Char) :=
  match _hc : next k with
  | .error e k₁ => .error e k₁
  | .ok none k₁ => .error .endInString k₁
  | .ok (some c) k₁ =>
    if c == '"' then .ok [] k₁
    else if c == '\\' then
      match _he : escape k₁ with
      | .ok d k₂ => prepend [d] (stringBody k₂)
      | .error e k₂ => .error e k₂
    else prepend [c] (stringBody k₁)
termination_by k.size
decreasing_by
  · exact Nat.lt_of_le_of_lt (shrinks_escape.le_of_ok _he) (size_lt_of_next _hc)
  · exact size_lt_of_next _hc

/-- The characters of a pattern up to its closing quote, which is passed over. -/
def patternBody (k : Cursor) : EStateM.Result Cause Cursor (List Char) :=
  match _hc : next k with
  | .error e k₁ => .error e k₁
  | .ok none k₁ => .error .endInPattern k₁
  | .ok (some c) k₁ =>
    if c == '"' then .ok [] k₁
    else if c == '\\' then
      match _hd : next k₁ with
      | .error e k₂ => .error e k₂
      | .ok none k₂ => .error .endInPattern k₂
      | .ok (some d) k₂ => prepend [c, d] (patternBody k₂)
    else prepend [c] (patternBody k₁)
termination_by k.size
decreasing_by
  · exact Nat.lt_trans (size_lt_of_next _hd) (size_lt_of_next _hc)
  · exact size_lt_of_next _hc

/-- The text of a string, after its opening quote. -/
def string : Scan String :=
  String.ofList <$> (stringBody : Scan (List Char))

/-- The source of a pattern, after its opening quote. -/
def pattern : Scan String :=
  String.ofList <$> (patternBody : Scan (List Char))

/-! ### Character literals -/

/-- The character that a token denotes: a lone character, a name, `u` with four hexadecimal digits
or `o` with up to three octal digits. -/
def charForToken (token : String) : Except Cause Char :=
  let unsupported : Cause := .unsupportedCharacter ("\\" ++ token)
  match token.toList with
  | [] => .error unsupported
  | [c] => .ok c
  | kind :: digits =>
    match charForName? token with
    | some c => .ok c
    | none =>
      if kind == 'u' then
        if digits.length == 4 && isNumeral 16 digits then
          let code := Numeral.value 16 digits
          match scalar? code with
          | some c => .ok c
          | none =>
            .error (.unsupportedCharacter
              ("invalid character constant: " ++ String.ofList ('\\' :: 'u' :: hex 1 code)))
        else .error unsupported
      else if kind == 'o' then
        if digits.length ≤ 3 && isNumeral 8 digits then
          let code := Numeral.value 8 digits
          if code ≤ 0xFF then .ok (Char.ofNat code) else .error (.unsupportedCharacter octalRange)
        else .error unsupported
      else .error unsupported

/-- A token that denotes no character is refused as one. -/
theorem exists_unsupported_of_charForToken {token : String} {e : Cause}
    (h : charForToken token = .error e) : ∃ text, e = .unsupportedCharacter text := by
  unfold charForToken at h
  dsimp only at h
  repeat' split at h
  all_goals cases h
  all_goals exact ⟨_, rfl⟩

/-- A character literal, after its backslash, as its token and its character. -/
def charLiteral : Scan (String × Char) := do
  match ← next with
  | none => throw .endInCharacter
  | some first =>
    let text ← token first
    match charForToken text with
    | .ok c => return (text, c)
    | .error e => throw e

/-! ### The loops step by step -/

/-- The loop over the characters of a string as a program. -/
theorem stringBody_eq : (stringBody : Scan (List Char)) = (do
    match ← (next : Scan (Option Char)) with
    | none => throw .endInString
    | some c =>
      if c == '"' then return []
      else if c == '\\' then
        let d ← escape
        ([d] ++ ·) <$> (stringBody : Scan (List Char))
      else ([c] ++ ·) <$> (stringBody : Scan (List Char)) : Scan (List Char)) := by
  funext k
  rw [stringBody.eq_def, bind_apply]
  rcases next k with ⟨- | c, k₁⟩ | ⟨e, k₁⟩
  · rfl
  · dsimp only
    split
    · rfl
    · split
      · rw [bind_apply]
        rcases escape k₁ with ⟨d, k₂⟩ | ⟨e, k₂⟩
        · exact (map_prepend _ _ _).symm
        · rfl
      · exact (map_prepend _ _ _).symm
  · rfl

/-- The loop over the characters of a pattern as a program. -/
theorem patternBody_eq : (patternBody : Scan (List Char)) = (do
    match ← (next : Scan (Option Char)) with
    | none => throw .endInPattern
    | some c =>
      if c == '"' then return []
      else if c == '\\' then
        match ← (next : Scan (Option Char)) with
        | none => throw .endInPattern
        | some d => ([c, d] ++ ·) <$> (patternBody : Scan (List Char))
      else ([c] ++ ·) <$> (patternBody : Scan (List Char)) : Scan (List Char)) := by
  funext k
  rw [patternBody.eq_def, bind_apply]
  rcases next k with ⟨- | c, k₁⟩ | ⟨e, k₁⟩
  · rfl
  · dsimp only
    split
    · rfl
    · split
      · rw [bind_apply]
        rcases next k₁ with ⟨- | d, k₂⟩ | ⟨e, k₂⟩
        · rfl
        · exact (map_prepend _ _ _).symm
        · rfl
      · exact (map_prepend _ _ _).symm
  · rfl

section

variable {k k₁ k₂ : Cursor} {c d : Char}

/-- A quote ends a string. -/
theorem stringBody_of_quote (hnext : next k = .ok (some c) k₁) (hc : (c == '"') = true) :
    stringBody k = .ok [] k₁ := by
  rw [stringBody.eq_def, hnext]
  simp only [hc, if_true]

/-- An escape adds the character that it stands for. -/
theorem stringBody_of_escape (hnext : next k = .ok (some c) k₁) (hc : ¬ (c == '"') = true)
    (hb : (c == '\\') = true) (he : escape k₁ = .ok d k₂) :
    stringBody k = prepend [d] (stringBody k₂) := by
  rw [stringBody.eq_def, hnext]
  dsimp only
  rw [if_neg hc, if_pos hb, he]

/-- Any other character stands for itself. -/
theorem stringBody_of_plain (hnext : next k = .ok (some c) k₁) (hc : ¬ (c == '"') = true)
    (hb : ¬ (c == '\\') = true) : stringBody k = prepend [c] (stringBody k₁) := by
  rw [stringBody.eq_def, hnext]
  dsimp only
  rw [if_neg hc, if_neg hb]

/-- A quote ends a pattern. -/
theorem patternBody_of_quote (hnext : next k = .ok (some c) k₁) (hc : (c == '"') = true) :
    patternBody k = .ok [] k₁ := by
  rw [patternBody.eq_def, hnext]
  simp only [hc, if_true]

/-- A backslash keeps itself and the character behind it. -/
theorem patternBody_of_backslash (hnext : next k = .ok (some c) k₁) (hc : ¬ (c == '"') = true)
    (hb : (c == '\\') = true) (hd : next k₁ = .ok (some d) k₂) :
    patternBody k = prepend [c, d] (patternBody k₂) := by
  rw [patternBody.eq_def, hnext]
  dsimp only
  rw [if_neg hc, if_pos hb, hd]

/-- Any other character is kept. -/
theorem patternBody_of_plain (hnext : next k = .ok (some c) k₁) (hc : ¬ (c == '"') = true)
    (hb : ¬ (c == '\\') = true) : patternBody k = prepend [c] (patternBody k₁) := by
  rw [patternBody.eq_def, hnext]
  dsimp only
  rw [if_neg hc, if_neg hb]

end

/-! ### What scanning leaves -/

/-- Scanning the body of a string lengthens nothing, whether its quote is found or not. -/
theorem shrinks_stringBody : Shrinks Cursor.size stringBody := by
  constructor
  intro k
  fun_induction stringBody k with
  | case1 k e k₁ hc => exact shrinks_next.le_of_error hc
  | case2 k k₁ hc => exact shrinks_next.le_of_ok hc
  | case3 k c k₁ hc _ => exact shrinks_next.le_of_ok hc
  | case4 k c k₁ hc _ _ d k₂ he ih =>
    rw [stateOf_prepend]
    exact Nat.le_trans ih (Nat.le_trans (shrinks_escape.le_of_ok he) (shrinks_next.le_of_ok hc))
  | case5 k c k₁ hc _ _ e k₂ he =>
    exact Nat.le_trans (shrinks_escape.le_of_error he) (shrinks_next.le_of_ok hc)
  | case6 k c k₁ hc _ _ ih =>
    rw [stateOf_prepend]
    exact Nat.le_trans ih (shrinks_next.le_of_ok hc)

/-- Nor does scanning the body of a pattern. -/
theorem shrinks_patternBody : Shrinks Cursor.size patternBody := by
  constructor
  intro k
  fun_induction patternBody k with
  | case1 k e k₁ hc => exact shrinks_next.le_of_error hc
  | case2 k k₁ hc => exact shrinks_next.le_of_ok hc
  | case3 k c k₁ hc _ => exact shrinks_next.le_of_ok hc
  | case4 k c k₁ hc _ _ e k₂ hd =>
    exact Nat.le_trans (shrinks_next.le_of_error hd) (shrinks_next.le_of_ok hc)
  | case5 k c k₁ hc _ _ k₂ hd =>
    exact Nat.le_trans (shrinks_next.le_of_ok hd) (shrinks_next.le_of_ok hc)
  | case6 k c k₁ hc _ _ d k₂ hd ih =>
    rw [stateOf_prepend]
    exact Nat.le_trans ih (Nat.le_trans (shrinks_next.le_of_ok hd) (shrinks_next.le_of_ok hc))
  | case7 k c k₁ hc _ _ ih =>
    rw [stateOf_prepend]
    exact Nat.le_trans ih (shrinks_next.le_of_ok hc)

theorem shrinks_token (first : Char) : Shrinks Cursor.size (token first) :=
  .bind (shrinks_takeUntil _) fun _ => .pure _

theorem shrinks_number (first : Char) : Shrinks Cursor.size (number first) := by
  refine .bind (shrinks_takeUntil _) fun _ => ?_
  dsimp only
  split
  · exact .pure _
  · exact .throw _

theorem shrinks_line : Shrinks Cursor.size line :=
  .bind (shrinks_takeThrough _) fun _ => .pure _

theorem shrinks_string : Shrinks Cursor.size string :=
  .map shrinks_stringBody _

theorem shrinks_pattern : Shrinks Cursor.size pattern :=
  .map shrinks_patternBody _

theorem shrinks_charLiteral : Shrinks Cursor.size charLiteral := by
  refine .bind shrinks_next fun c => ?_
  cases c with
  | none => exact .throw _
  | some c =>
    refine .bind (shrinks_token _) fun text => ?_
    split
    · exact .pure _
    · exact .throw _

end FormTree.Scan
