import FormTree.Proofs.Number.Digits
import FormTree.Proofs.Print.Chars
import FormTree.Proofs.Source.Scanned
import FormTree.Proofs.Source.Units

/-!
# The bodies of strings and patterns

Which texts are the body of a string, and what they stand for. Scanning takes exactly such a body
and the quote after it, and what is written for a string is such a body, so that it reads back.
-/

namespace FormTree.Scan

open Cursor Text Utf16

/-- The letters of the escapes of one letter, and what they escape. -/
def letters : List (Char × Char) :=
  [('t', '\t'), ('r', '\r'), ('n', '\n'), ('\\', '\\'), ('"', '"'), ('b', '\x08'), ('f', '\x0c')]

/-- Whether characters, in front of `rest`, are read as a character behind a backslash: a letter,
the unit of the character or the pair of its surrogates, or one to three octal digits. Fewer than
three octal digits stand in front of what ends a number. -/
inductive IsEscapeOf (rest : List Char) : List Char → Char → Prop
  | letter {l c : Char} (h : (l, c) ∈ letters) : IsEscapeOf rest [l] c
  | unit {unit : UInt16} {digits : List Char} {c : Char} (h : IsCode unit digits)
      (hc : encode c = [unit]) : IsEscapeOf rest ('u' :: digits) c
  | pair {high low : UInt16} {digits digits' : List Char} {c : Char} (h : IsCode high digits)
      (h' : IsCode low digits') (hc : encode c = [high, low]) :
      IsEscapeOf rest ('u' :: (digits ++ '\\' :: 'u' :: digits')) c
  | octal {digits : List Char} (hdigits : isNumeral 8 digits = true) (hlength : digits.length ≤ 3)
      (hend : digits.length = 3 ∨ ∀ d ∈ rest.head?, endsNumber d = true)
      (hle : Numeral.value 8 digits ≤ 0xFF) :
      IsEscapeOf rest digits (Char.ofNat (Numeral.value 8 digits))

/-- Whether a text is the body of a string for the characters `cs`. -/
inductive IsBody : List Char → List Char → Prop
  | nil : IsBody [] []
  | plain {c : Char} {text cs : List Char} (hquote : c ≠ '"') (hbackslash : c ≠ '\\')
      (h : IsBody text cs) : IsBody (c :: text) (c :: cs)
  | escape {escape text cs : List Char} {c : Char} (hc : IsEscapeOf (text ++ ['"']) escape c)
      (h : IsBody text cs) : IsBody ('\\' :: (escape ++ text)) (c :: cs)

variable {total : Bool} {rest : List Char} {c : Char}

/-! ### What scanning takes -/

section

variable (t : List Char)

/-- The next character in a string is the first one of its text. -/
theorem takes_inString :
    Triple false (At · t) inString fun a k => ∃ rest, t = a :: rest ∧ k.Past rest := by
  rcases t with - | ⟨c, t⟩
  · exact .bind_eq triple_next_nil .throw
  · exact .bind_eq (triple_next c) (.pure fun k hk => ⟨t, rfl, hk⟩)

/-- Digits are taken as far as there are any. -/
theorem takes_digits (radix more count code : Nat) :
    Triple false (At · t) (digits radix more count code) fun a k => ∃ cs rest,
      t = cs ++ rest ∧ cs.all (isDigitIn radix) = true ∧ cs.length ≤ more ∧
        (cs.length = more ∨ ∀ d ∈ rest.head?, endsNumber d = true) ∧
        a = (count + cs.length,
          (cs.map fun c => (digitValue? radix c).getD 0).foldl (fun n d => n * radix + d) code) ∧
        k.At rest := by
  induction more generalizing t count code with
  | zero => exact .pure fun k hk => ⟨[], t, rfl, rfl, Nat.le_refl _, .inl rfl, rfl, hk⟩
  | succ more ih =>
    rcases t with - | ⟨c, t⟩
    · exact .bind_eq triple_next_nil (.pure fun k hk =>
        ⟨[], [], rfl, rfl, Nat.zero_le _, .inr (by simp), rfl, hk⟩)
    · refine .bind_eq (triple_next c) ?_
      dsimp only
      -- A character that ends a number is handed back; any other has to be a digit.
      by_cases hends : endsNumber c = true
      · rw [if_pos hends]
        intro k hk
        exact ⟨[], c :: t, rfl, rfl, Nat.zero_le _, .inr (by simpa using hends), rfl, hk.handBack c⟩
      · rw [if_neg hends]
        rcases hd : digitValue? radix c with - | d
        · exact .throw
        · refine (ih t (count + 1) (code * radix + d)).mono (fun _ hk => hk.1) ?_
          rintro _ k ⟨cs, rest, rfl, hall, hle, hend, rfl, hk⟩
          have hc : isDigitIn radix c = true := by rw [isDigitIn, hd]; rfl
          refine ⟨c :: cs, rest, rfl, by simp [hc, hall], Nat.succ_le_succ hle,
            hend.imp_left (congrArg Nat.succ), ?_, hk⟩
          simp [hd, Nat.add_assoc, Nat.add_comm 1]

/-- What is scanned as a code are digits, no more than asked for. -/
theorem takes_digitsFrom (first : Char) (radix length : Nat) :
    Triple false (At · t) (digitsFrom first radix (length + 1)) fun a k => ∃ cs rest,
      t = cs ++ rest ∧ isNumeral radix (first :: cs) = true ∧ cs.length ≤ length ∧
        (cs.length = length ∨ ∀ d ∈ rest.head?, endsNumber d = true) ∧
        a = (cs.length + 1, Numeral.value radix (first :: cs)) ∧ k.At rest := by
  rw [digitsFrom]
  rcases hd : digitValue? radix first with - | d
  · exact .throw
  · refine (takes_digits t radix length 1 d).mono (fun _ hk => hk) ?_
    rintro _ k ⟨cs, rest, rfl, hall, hle, hend, rfl, hk⟩
    have hfirst : isDigitIn radix first = true := by rw [isDigitIn, hd]; rfl
    refine ⟨cs, rest, rfl, by simp [isNumeral, hfirst, hall], hle, hend, ?_, hk⟩
    simp [Numeral.value, Numeral.ofDigits, hd, Nat.add_comm 1]

/-- What is taken as a code unit is the code of one. -/
theorem takes_codeUnit :
    Triple false (At · t) codeUnit fun a k => ∃ unit digits rest,
      t = digits ++ rest ∧ IsCode unit digits ∧ a = unit.toNat ∧ k.At rest := by
  refine .bind (takes_inString t) fun first => .of_exists fun t => .of_and fun ht => ?_
  subst ht
  refine .bind (takes_digitsFrom t first 16 3).past fun a => ?_
  refine .of_exists fun cs => .of_exists fun rest => .of_and ?_
  rintro rfl
  refine .of_and fun hnumeral => .of_and fun _ => .of_and fun _ => .of_and ?_
  rintro rfl
  dsimp only
  by_cases hlength : cs.length + 1 = 4
  · have hfour : (first :: cs).length = 4 := hlength
    obtain ⟨unit, hunit⟩ := exists_isCode hfour hnumeral
    refine .ite_true hlength (.pure fun k hk => ?_)
    exact ⟨unit, first :: cs, rest, rfl, hunit, hunit.value_eq, hk⟩
  · exact .ite_false hlength .throw

/-- What is taken behind a high surrogate is the escape of a low one. -/
theorem takes_lowUnit (high : Nat) :
    Triple false (At · t) (lowUnit high) fun a k => ∃ low digits rest,
      t = '\\' :: 'u' :: (digits ++ rest) ∧ IsCode low digits ∧ isLow low = true ∧ a = low.toNat ∧
        k.At rest := by
  refine .bind (takes_inString t) fun backslash => .of_exists fun t₁ => .of_and fun ht => ?_
  by_cases hbackslash : (backslash == '\\') = true
  · refine .ite_true hbackslash ?_
    refine .bind (takes_inString t₁).past fun letter =>
      .of_exists fun t₂ => .of_and fun ht₁ => ?_
    by_cases hletter : (letter == 'u') = true
    · refine .ite_true hletter ?_
      refine .bind (takes_codeUnit t₂).past fun a => ?_
      refine .of_exists fun low => .of_exists fun digits => .of_exists fun rest => ?_
      refine .of_and fun ht₂ => .of_and fun hcode => .of_and ?_
      rintro rfl
      rw [low_eq]
      by_cases hlow : isLow low = true
      · refine .ite_true hlow (.pure fun k hk => ⟨low, digits, rest, ?_, hcode, hlow, rfl, hk⟩)
        rw [ht, ht₁, ht₂, eq_of_beq hbackslash, eq_of_beq hletter]
      · exact .ite_false hlow .throw
    · exact .ite_false hletter .throw
  · exact .ite_false hbackslash .throw

/-- What is taken as an escape of code units is one of the units of a character. -/
theorem takes_unicodeEscape :
    Triple false (At · t) unicodeEscape fun c k => ∃ text rest,
      t = text ++ rest ∧ IsEscapeOf rest ('u' :: text) c ∧ k.At rest := by
  refine .bind (takes_codeUnit t) fun high => ?_
  refine .of_exists fun unit => .of_exists fun digits => .of_exists fun t₁ => ?_
  refine .of_and fun ht => .of_and fun hcode => .of_and ?_
  rintro rfl
  rw [high_eq]
  by_cases hhigh : isHigh unit = true
  · refine .ite_true hhigh (.bind (takes_lowUnit t₁ _) fun a => ?_)
    -- the code point stays closed, since its subtractions are long ones to compute
    generalize hn : 0x10000 + (unit.toNat - 0xD800) * 0x400 + (a - 0xDC00) = n
    rintro k ⟨low, digits', rest, ht₁, hcode', hlow, rfl, hk⟩
    obtain ⟨c, hc, hscalar⟩ := exists_encode_eq_pair hhigh hlow
    rw [← hn, ← hscalar, scalarFrom_toNat]
    exact ⟨_, rest, by simp [ht, ht₁], .pair hcode hcode' hc, hk⟩
  · refine .ite_false hhigh ?_
    rw [Bool.not_eq_true] at hhigh
    rcases hlow : isLow unit with - | -
    · obtain ⟨c, hc, hscalar⟩ := exists_encode_eq hhigh hlow
      rw [← hscalar, scalarFrom_toNat]
      exact .pure fun k hk => ⟨digits, t₁, ht, .unit hcode hc, hk⟩
    · have hrange := isLow_iff.1 hlow
      rw [scalarFrom, scalar?_eq_none (by omega) hrange.2]
      exact .throw

/-- What is scanned as an escape is one of a character. -/
theorem takes_escape :
    Triple false (At · t) escape fun c k => ∃ text rest,
      t = text ++ rest ∧ IsEscapeOf rest text c ∧ k.At rest := by
  refine .bind (takes_inString t) fun c => .of_exists fun t₁ => .of_and fun ht => ?_
  subst ht
  have hletter {l : Char} (h : (c, l) ∈ letters) :
      Triple false (Past · t₁) (pure l : Scan Char) fun a k => ∃ text rest,
        c :: t₁ = text ++ rest ∧ IsEscapeOf rest text a ∧ k.At rest :=
    .pure fun k hk => ⟨[c], t₁, rfl, .letter h, hk.1⟩
  split
  case h_8 =>
    refine (takes_unicodeEscape t₁).mono (fun _ hk => hk.1) ?_
    rintro a k ⟨text, rest, rfl, htext, hk⟩
    exact ⟨'u' :: text, rest, rfl, htext, hk⟩
  -- an octal code is the only escape that begins with a digit
  case h_9 =>
    by_cases hdigit : isDigit c = true
    · refine .ite_true hdigit ?_
      refine .bind (takes_digitsFrom t₁ c 8 2).past fun a => ?_
      refine .of_exists fun cs => .of_exists fun rest => .of_and ?_
      rintro rfl
      refine .of_and fun hnumeral => .of_and fun hle => .of_and fun hend => .of_and ?_
      rintro rfl
      dsimp only
      by_cases hcode : Numeral.value 8 (c :: cs) ≤ 0xFF
      · refine .ite_true hcode (.pure fun k hk => ⟨c :: cs, rest, rfl, ?_, hk⟩)
        exact .octal hnumeral (Nat.succ_le_succ hle) (hend.imp_left (congrArg Nat.succ)) hcode
      · exact .ite_false hcode .throw
    · exact .ite_false hdigit .throw
  all_goals exact hletter (by decide)

end

/-- What follows an escape matters for its first character only. -/
theorem IsEscapeOf.of_head {rest' text : List Char} (h : IsEscapeOf rest text c)
    (hhead : ∀ d ∈ rest'.head?, d ∈ rest.head?) : IsEscapeOf rest' text c := by
  cases h with
  | letter h => exact .letter h
  | unit h hc => exact .unit h hc
  | pair h h' hc => exact .pair h h' hc
  | octal hdigits hlength hend hle =>
    exact .octal hdigits hlength (hend.imp_right fun h d hd => h d (hhead d hd)) hle

/-- What is taken as the rest of a string is the body of one and a quote. -/
theorem takes_stringBody (t : List Char) :
    Triple false (At · t) stringBody fun cs k => ∃ text rest,
      t = text ++ '"' :: rest ∧ IsBody text cs ∧ k.At rest := by
  -- an escape takes some characters, so that the induction is on how many there are
  induction hlength : t.length using Nat.strongRecOn generalizing t with
  | ind n ih =>
    subst hlength
    rw [stringBody_eq]
    rcases t with - | ⟨c, t⟩
    · exact .bind_eq triple_next_nil .throw
    · refine .bind_eq (triple_next c) ?_
      dsimp only
      by_cases hquote : (c == '"') = true
      · refine .ite_true hquote (.pure fun k hk => ⟨[], t, ?_, .nil, hk.1⟩)
        rw [eq_of_beq hquote]
        rfl
      · refine .ite_false hquote ?_
        by_cases hbackslash : (c == '\\') = true
        · refine .ite_true hbackslash (.bind (takes_escape t).past fun d => ?_)
          refine .of_exists fun escape => .of_exists fun t₁ => ?_
          refine .of_and fun ht => .of_and fun hd => ?_
          have hlt : t₁.length < (c :: t).length := by
            rw [ht, List.length_cons, List.length_append]
            omega
          refine .map (ih _ hlt t₁ rfl) ?_
          rintro cs k ⟨text, rest, rfl, htext, hk⟩
          refine ⟨'\\' :: (escape ++ text), rest, ?_, .escape (hd.of_head ?_) htext, hk⟩
          · rw [eq_of_beq hbackslash, ht, List.cons_append, List.append_assoc]
          · rcases text with - | ⟨_, _⟩ <;> exact fun _ h => h
        · refine .ite_false hbackslash ?_
          refine .map (ih _ (Nat.lt_succ_self _) t rfl).past ?_
          rintro cs k ⟨text, rest, rfl, htext, hk⟩
          have hplain := htext.plain (by simpa using hquote) (by simpa using hbackslash)
          exact ⟨c :: text, rest, rfl, hplain, hk⟩

/-- What is taken as the rest of a pattern is the pattern and a quote. -/
theorem takes_patternBody (t : List Char) :
    Triple false (At · t) patternBody fun cs k => ∃ rest, t = cs ++ '"' :: rest ∧ k.At rest := by
  -- By length: behind a backslash two characters are gone at once.
  induction hlength : t.length using Nat.strongRecOn generalizing t with
  | ind n ih =>
    subst hlength
    rw [patternBody_eq]
    rcases t with - | ⟨c, t⟩
    · exact .bind_eq triple_next_nil .throw
    · refine .bind_eq (triple_next c) ?_
      dsimp only
      by_cases hquote : (c == '"') = true
      · refine .ite_true hquote (.pure fun k hk => ⟨t, ?_, hk.1⟩)
        rw [eq_of_beq hquote]
        rfl
      · refine .ite_false hquote ?_
        by_cases hbackslash : (c == '\\') = true
        · refine .ite_true hbackslash ?_
          rcases t with - | ⟨d, t⟩
          · exact .bind_eq triple_next_nil.past .throw
          · refine .bind_eq (triple_next d).past ?_
            have hlt : t.length < (c :: d :: t).length := Nat.lt_succ_of_lt (Nat.lt_succ_self _)
            refine .map (ih _ hlt t rfl).past ?_
            rintro cs k ⟨rest, rfl, hk⟩
            exact ⟨rest, rfl, hk⟩
        · refine .ite_false hbackslash ?_
          refine .map (ih _ (Nat.lt_succ_self _) t rfl).past ?_
          rintro cs k ⟨rest, rfl, hk⟩
          exact ⟨rest, rfl, hk⟩

/-- What is scanned as a string is the body of one, with a quote behind it. -/
theorem takes_string (t : List Char) :
    Triple false (At · t) string fun _ k => ∃ text cs rest,
      t = text ++ '"' :: rest ∧ IsBody text cs ∧ k.At rest := by
  refine .map (takes_stringBody t) ?_
  rintro cs k ⟨text, rest, ht, htext, hk⟩
  exact ⟨text, cs, rest, ht, htext, hk⟩

/-- What is scanned as a pattern is the body of one, with a quote behind it. -/
theorem takes_pattern (t : List Char) :
    Triple false (At · t) pattern fun source k => ∃ rest,
      t = source.toList ++ '"' :: rest ∧ isPatternBody source.toList = true ∧ k.At rest := by
  intro k hk
  have htaken : Triple false (At · t) pattern fun source k => ∃ rest,
      t = source.toList ++ '"' :: rest ∧ k.At rest := by
    refine .map (takes_patternBody t) ?_
    rintro cs k ⟨rest, ht, hk⟩
    exact ⟨rest, by rw [String.toList_ofList, ht], hk⟩
  rcases hrun : pattern k with ⟨source, l⟩ | ⟨e, l⟩
  · obtain ⟨rest, ht, hl⟩ := htaken.of_eq_ok hk hrun
    exact ⟨rest, ht, isPatternBody_of_pattern hrun, hl⟩
  · rfl

/-! ### What is taken as it stands for -/

/-- An escape is read as its character. -/
theorem IsEscapeOf.triple_escape {text : List Char} (h : IsEscapeOf rest text c) :
    Triple total (At · (text ++ rest)) escape fun a k => a = c ∧ k.At rest := by
  cases h with
  | letter h =>
    have hletter (l : Char) : Triple total (Past · rest) (pure l : Scan Char) fun a k =>
        a = l ∧ k.At rest :=
      .pure fun k hk => ⟨rfl, hk.1⟩
    simp only [letters, List.mem_cons, List.not_mem_nil, or_false, Prod.mk.injEq] at h
    rcases h with ⟨rfl, rfl⟩ | ⟨rfl, rfl⟩ | ⟨rfl, rfl⟩ | ⟨rfl, rfl⟩ | ⟨rfl, rfl⟩ | ⟨rfl, rfl⟩ |
      ⟨rfl, rfl⟩
    all_goals exact .bind_eq (triple_inString _) (hletter _)
  | unit h hc =>
    exact .bind_eq (triple_inString 'u') (triple_unicodeEscape_unit h hc).past
  | pair h h' hc =>
    rw [List.cons_append, List.append_assoc]
    exact .bind_eq (triple_inString 'u') (triple_unicodeEscape_pair h h' hc).past
  | octal hdigits hlength hend hle =>
    rcases text with - | ⟨d, ds⟩
    · cases hdigits
    · have hd : isDigit d = true := by
        rw [← isDigitIn_ten]
        have hall := (Bool.and_eq_true_iff.1 hdigits).2
        exact isDigitIn_mono (by decide) (Bool.and_eq_true_iff.1 hall).1
      refine .bind_eq (triple_inString d) ?_
      split
      -- all other branches are for characters that are no digits
      case h_9 =>
        have htaken : Triple total (At · (ds ++ rest)) (digitsFrom d 8 3) _ :=
          triple_digitsFrom hdigits hlength hend
        refine .ite_true hd (.bind_eq htaken.past ?_)
        exact .ite_true hle (.pure fun k hk => ⟨rfl, hk⟩)
      all_goals exact absurd hd (by decide)

/-- The body of a string stands for its characters. -/
theorem IsBody.standsFor {text cs : List Char} (h : IsBody text cs) :
    StandsFor ('"' :: rest) text cs := by
  induction h with
  | nil => exact .nil _
  | plain hquote hbackslash _ ih => exact (StandsFor.plain hquote hbackslash).append ih
  | @escape escape text _ _ hc _ ih =>
    have hhead : ∀ d ∈ (text ++ '"' :: rest).head?, d ∈ (text ++ ['"']).head? := by
      rcases text with - | ⟨_, _⟩ <;> exact fun _ h => h
    exact (StandsFor.escape (hc.of_head hhead).triple_escape).append ih

/-! ### What is written -/

/-- What is written for a character that is escaped is an escape of it, whatever follows. -/
theorem exists_isEscapeOf {e : Escape} (h : Escape.ofChar? c = some e) :
    ∃ text, e.text.toList = '\\' :: text ∧ ∀ rest, IsEscapeOf rest text c := by
  rcases Escape.eq_of_ofChar? h with h | ⟨hc, rfl⟩
  · simp only [Escape.oneLetter, List.mem_cons, List.not_mem_nil, or_false, Prod.mk.injEq] at h
    rcases h with ⟨rfl, rfl⟩ | ⟨rfl, rfl⟩ | ⟨rfl, rfl⟩ | ⟨rfl, rfl⟩ | ⟨rfl, rfl⟩ | ⟨rfl, rfl⟩ |
      ⟨rfl, rfl⟩
    all_goals exact ⟨_, rfl, fun _ => .letter (by decide)⟩
  · have hlt : c.toNat < 0x10000 := by omega
    refine ⟨'u' :: hexCapital 4 c.toNat, by rw [Escape.text, String.toList_ofList], ?_⟩
    exact fun _ => .unit (isCode_hexCapital hlt) (if_pos hlt)

/-- What is written for a text is the body of a string for it. -/
theorem isBody_flatMap_escaped (cs : List Char) : IsBody (cs.flatMap escaped) cs := by
  induction cs with
  | nil => exact .nil
  | cons c cs ih =>
    rw [List.flatMap_cons, escaped]
    rcases hc : Escape.ofChar? c with - | e
    · have hne {d : Char} {e : Escape} (hd : Escape.ofChar? d = some e) : c ≠ d := by
        rintro rfl
        rw [hc] at hd
        cases hd
      exact ih.plain (hne rfl) (hne rfl)
    · obtain ⟨text, htext, hescape⟩ := exists_isEscapeOf hc
      dsimp only
      rw [htext]
      exact .escape (hescape _) ih

/-- A string reads back from its escapes. -/
theorem triple_string (text : String) :
    Triple total (At · (text.toList.flatMap escaped ++ '"' :: rest)) string fun a k =>
      a = text ∧ k.At rest := by
  refine .map (isBody_flatMap_escaped text.toList).standsFor.triple_stringBody ?_
  rintro _ k ⟨rfl, hk⟩
  exact ⟨String.ofList_toList, hk⟩

end FormTree.Scan
