import FormTree.Proofs.Source.Quoted
import FormTree.Proofs.Text.Utf16

/-!
# Strings of code units

Escapes with four hexadecimal digits are code units. A string of such escapes is read just if the
units encode a text, and then as that text. Otherwise the first surrogate that is in no pair is
refused.
-/

namespace FormTree

open Cursor Text

namespace Utf16

/-- Whether digits are the code of a unit: four hexadecimal ones, letters of either case among
them. -/
structure IsCode (unit : UInt16) (digits : List Char) : Prop where
  length_eq : digits.length = 4
  isNumeral : isNumeral 16 digits = true
  value_eq : Numeral.value 16 digits = unit.toNat

/-- Four hexadecimal digits are the code of a unit. -/
theorem exists_isCode {digits : List Char} (hlength : digits.length = 4)
    (hdigits : isNumeral 16 digits = true) : ∃ unit, IsCode unit digits := by
  have hlt {c : Char} (hc : c ∈ digits) : (digitValue? 16 c).getD 0 < 16 := by
    have hc := List.all_eq_true.1 (Bool.and_eq_true_iff.1 hdigits).2 c hc
    obtain ⟨d, hd⟩ := Option.isSome_iff_exists.1 hc
    have hd' := (Option.filter_eq_some_iff.1 hd).2
    rw [hd]
    simpa using hd'
  have hvalue : Numeral.value 16 digits < 0x10000 := by
    obtain ⟨a, b, c, d, rfl⟩ := List.length_eq_four.1 hlength
    have ha := hlt (c := a) (by simp)
    have hb := hlt (c := b) (by simp)
    have hc := hlt (c := c) (by simp)
    have hd := hlt (c := d) (by simp)
    simp only [Numeral.value, Numeral.ofDigits, List.map_cons, List.map_nil, List.foldl_cons,
      List.foldl_nil]
    omega
  exact ⟨.ofNat (Numeral.value 16 digits), hlength, hdigits, (toNat_ofNat_of_lt hvalue).symm⟩

/-- The capital digits of a unit are a code of it. -/
theorem isCode_hexCapital {n : Nat} (h : n < 0x10000) : IsCode (.ofNat n) (hexCapital 4 n) :=
  ⟨length_hexCapital h, isNumeral_hexCapital h,
    (value_hexCapital h).trans (toNat_ofNat_of_lt h).symm⟩

/-- Whether a text is made of the escapes of some units. -/
inductive IsEscaped : List UInt16 → List Char → Prop
  | nil : IsEscaped [] []
  | cons {unit : UInt16} {units : List UInt16} {digits text : List Char} (h : IsCode unit digits)
      (hs : IsEscaped units text) : IsEscaped (unit :: units) ('\\' :: 'u' :: (digits ++ text))

/-- The escapes of units in a row are a row of escapes. -/
theorem IsEscaped.exists_append {units units' : List UInt16} {text : List Char}
    (h : IsEscaped (units ++ units') text) :
    ∃ before after, text = before ++ after ∧ IsEscaped units before ∧ IsEscaped units' after := by
  induction units generalizing text with
  | nil => exact ⟨[], text, rfl, .nil, h⟩
  | cons unit units ih =>
    cases h with
    | cons h hs =>
      obtain ⟨before, after, rfl, hbefore, hafter⟩ := ih hs
      exact ⟨_, after, by simp, .cons h hbefore, hafter⟩

end Utf16

namespace Scan

open Utf16

variable {total : Bool} {rest : List Char} {unit high low : UInt16} {c : Char}

theorem high_eq :
    (decide (0xD800 ≤ unit.toNat) && decide (unit.toNat ≤ 0xDBFF)) = isHigh unit := by
  rw [Bool.eq_iff_iff, isHigh_iff, Bool.and_eq_true, decide_eq_true_eq, decide_eq_true_eq]

theorem low_eq :
    (decide (0xDC00 ≤ unit.toNat) && decide (unit.toNat ≤ 0xDFFF)) = isLow unit := by
  rw [Bool.eq_iff_iff, isLow_iff, Bool.and_eq_true, decide_eq_true_eq, decide_eq_true_eq]

/-- A code is scanned as its unit. -/
theorem triple_codeUnit_of_isCode {digits : List Char} (h : IsCode unit digits) :
    Triple total (At · (digits ++ rest)) codeUnit fun a k => a = unit.toNat ∧ k.At rest := by
  rw [← h.value_eq]
  exact triple_codeUnit h.length_eq h.isNumeral

/-- No surrogate is a scalar value. -/
theorem scalar?_eq_none {n : Nat} (hle : 0xD800 ≤ n) (hge : n ≤ 0xDFFF) : scalar? n = none := by
  rw [scalar?, dif_neg]
  rw [Nat.isValidChar]
  omega

/-- The low surrogate of a pair. -/
theorem triple_lowUnit {digits : List Char} (h : IsCode low digits) (hlow : isLow low = true)
    (unit : Nat) : Triple total (At · ('\\' :: 'u' :: (digits ++ rest))) (lowUnit unit) fun a k =>
      a = low.toNat ∧ k.At rest := by
  refine .bind_eq (triple_inString '\\') (.ite_true rfl ?_)
  refine .bind_eq (triple_inString 'u').past (.ite_true rfl ?_)
  refine .bind_eq (triple_codeUnit_of_isCode h).past ?_
  rw [low_eq]
  exact .ite_true hlow (.pure fun k hk => ⟨rfl, hk⟩)

/-! ### Characters -/

/-- The code of a unit is read as the character of the unit. -/
theorem triple_unicodeEscape_unit {digits : List Char} (h : IsCode unit digits)
    (hc : encode c = [unit]) :
    Triple total (At · (digits ++ rest)) unicodeEscape fun a k => a = c ∧ k.At rest := by
  have hencoded := isEncoded_encode c
  rw [hc] at hencoded
  cases hencoded with
  | single _ _ hunit =>
    exact triple_unicodeEscape h.length_eq h.isNumeral (h.value_eq.trans hunit)

/-- The codes of two surrogates are read as the character of the pair. -/
theorem triple_unicodeEscape_pair {digits digits' : List Char} (h : IsCode high digits)
    (h' : IsCode low digits') (hc : encode c = [high, low]) :
    Triple total (At · (digits ++ '\\' :: 'u' :: (digits' ++ rest))) unicodeEscape fun a k =>
      a = c ∧ k.At rest := by
  have hencoded := isEncoded_encode c
  rw [hc] at hencoded
  cases hencoded with
  | pair hhigh hlow hpair =>
    refine .bind_eq (triple_codeUnit_of_isCode h) ?_
    rw [high_eq, hhigh]
    refine .ite_true rfl (.bind_eq (triple_lowUnit h' hlow _) ?_)
    rw [hpair, scalarFrom_toNat]
    exact .pure fun k hk => ⟨rfl, hk⟩

/-! ### Surrogates that are in no pair -/

/-- A surrogate that is in no pair is refused, whatever units are after it. -/
theorem fails_unicodeEscape {digits text : List Char} {units : List UInt16} (h : IsCode unit digits)
    (hs : IsEscaped units text) (hlone : IsLone unit units) :
    Fails (loneUnit unit.toNat) (At · (digits ++ (text ++ '"' :: rest))) unicodeEscape := by
  refine .bind_eq (triple_codeUnit_of_isCode h) ?_
  rw [high_eq]
  -- A low surrogate is refused at once; a high one only when no low one is found behind it.
  rcases hlone with hlow | ⟨hhigh, hrest⟩
  · have hrange := isLow_iff.1 hlow
    have hhigh : ¬ isHigh unit = true := by
      rw [isHigh_iff]
      omega
    refine .ite_false hhigh ?_
    rw [scalarFrom, scalar?_eq_none (by omega) hrange.2]
    exact .throw
  · refine .ite_true hhigh (.bind ?_)
    cases hs with
    | nil => exact .bind_eq (triple_inString '"') (.ite_false (by decide) .throw)
    | @cons low units _ _ h hs =>
      have hlow : ¬ isLow low = true := by
        rw [hrest low rfl]
        decide
      rw [List.cons_append, List.cons_append, List.append_assoc]
      refine .bind_eq (triple_inString '\\') (.ite_true rfl ?_)
      refine .bind_eq (triple_inString 'u').past (.ite_true rfl ?_)
      refine .bind_eq (triple_codeUnit_of_isCode h).past ?_
      rw [low_eq]
      exact .ite_false hlow .throw

/-! ### Strings -/

/-- Whether in the body of a string, in front of `rest`, the characters `text` stand for `cs`. -/
def StandsFor (rest text cs : List Char) : Prop :=
  ∀ k : Cursor, k.At (text ++ rest) →
    ∃ k' : Cursor, k'.At rest ∧ stringBody k = prepend cs (stringBody k')

theorem prepend_nil (r : EStateM.Result Cause Cursor (List Char)) : prepend [] r = r := by
  cases r <;> rfl

theorem prepend_append (cs ds : List Char) (r : EStateM.Result Cause Cursor (List Char)) :
    prepend (cs ++ ds) r = prepend cs (prepend ds r) := by
  cases r
  · rw [prepend, prepend, prepend, List.append_assoc]
  · rfl

namespace StandsFor

variable {text text' cs cs' : List Char}

theorem nil (rest : List Char) : StandsFor rest [] [] := fun k hk => ⟨k, hk, (prepend_nil _).symm⟩

/-- What texts stand for one after the other they stand for together. -/
theorem append (h : StandsFor (text' ++ rest) text cs) (h' : StandsFor rest text' cs') :
    StandsFor rest (text ++ text') (cs ++ cs') := by
  intro k hk
  rw [List.append_assoc] at hk
  obtain ⟨l, hl, hrun⟩ := h k hk
  obtain ⟨m, hm, hrun'⟩ := h' l hl
  exact ⟨m, hm, by rw [hrun, hrun', prepend_append]⟩

/-- A character that is neither a quote nor a backslash stands for itself. -/
theorem plain (hquote : c ≠ '"') (hbackslash : c ≠ '\\') : StandsFor rest [c] [c] := by
  intro k hk
  obtain ⟨l, hnext, hl⟩ := next_of_at_cons hk
  refine ⟨l, hl.1, stringBody_of_plain hnext ?_ ?_⟩
  · simpa using hquote
  · simpa using hbackslash

/-- An escape stands for the character that it is read as. -/
theorem escape (h : Triple true (At · (text ++ rest)) escape fun a k => a = c ∧ k.At rest) :
    StandsFor rest ('\\' :: text) [c] := by
  intro k hk
  obtain ⟨l, hnext, hl⟩ := next_of_at_cons hk
  obtain ⟨_, k', hescape, rfl, hk'⟩ := h.exists_ok hl.1
  exact ⟨k', hk', stringBody_of_escape hnext (by decide) rfl hescape⟩

/-- The string ends at the quote. -/
theorem triple_stringBody (h : StandsFor ('"' :: rest) text cs) :
    Triple total (At · (text ++ '"' :: rest)) stringBody fun ds k => ds = cs ∧ k.At rest := by
  refine .of_ok fun k hk => ?_
  obtain ⟨l, hl, hrun⟩ := h k hk
  obtain ⟨k', hnext, hk'⟩ := next_of_at_cons hl
  refine ⟨cs, k', ?_, rfl, hk'.1⟩
  rw [hrun, stringBody_of_quote hnext rfl]
  exact congrArg (EStateM.Result.ok · k') (List.append_nil cs)

/-- What follows fails as it does on its own. -/
theorem fails {e : Cause} (h : StandsFor rest text cs) (hrest : Fails e (At · rest) stringBody) :
    Fails e (At · (text ++ rest)) stringBody := by
  intro k hk
  obtain ⟨l, hl, hrun⟩ := h k hk
  obtain ⟨k', hk'⟩ := hrest l hl
  exact ⟨k', by rw [hrun, hk']; rfl⟩

end StandsFor

/-- A refused escape makes the string fail. -/
theorem fails_stringBody_escape {e : Cause} {text : List Char} (h : Fails e (At · text) escape) :
    Fails e (At · ('\\' :: text)) stringBody := by
  rw [stringBody_eq]
  exact .bind_eq (triple_next '\\') (.bind h.past)

/-- The escapes of the units of a character stand for that character. -/
theorem standsFor_of_isEscaped_encode {text : List Char} (h : IsEscaped (encode c) text) :
    StandsFor rest text [c] := by
  have hencoded := isEncoded_encode c
  generalize hunits : encode c = units at h hencoded
  -- The units are one or two, as the character is inside or outside of the basic plane.
  cases hencoded with
  | single =>
    cases h with
    | cons h hs =>
      cases hs
      rw [List.append_nil]
      refine .escape (.bind_eq (triple_inString 'u') ?_)
      exact (triple_unicodeEscape_unit h hunits).past
  | pair =>
    cases h with
    | @cons _ _ digits _ h hs =>
      cases hs with
      | @cons _ _ digits' _ h' hs =>
        cases hs
        rw [List.append_nil]
        refine .escape ?_
        rw [List.cons_append, List.append_assoc]
        refine .bind_eq (triple_inString 'u') ?_
        exact (triple_unicodeEscape_pair h h' hunits).past

/-- The escapes of the units of a text stand for that text. -/
theorem standsFor_of_isEscaped {text cs : List Char} (h : IsEscaped (cs.flatMap encode) text) :
    StandsFor rest text cs := by
  induction cs generalizing text with
  | nil =>
    cases h
    exact .nil rest
  | cons c cs ih =>
    obtain ⟨first, text, rfl, hfirst, hs⟩ := h.exists_append
    exact (standsFor_of_isEscaped_encode hfirst).append (ih hs)

/-- The escapes of the units of a text are read as that text. -/
theorem triple_string_of_isEscaped {s : String} {text : List Char}
    (h : IsEscaped (encodeText s) text) :
    Triple total (At · (text ++ '"' :: rest)) string fun a k => a = s ∧ k.At rest := by
  refine .map (standsFor_of_isEscaped h).triple_stringBody ?_
  rintro _ k ⟨rfl, hk⟩
  exact ⟨String.ofList_toList, hk⟩

/-- A surrogate in no pair is refused where it stands. -/
theorem fails_string_of_isLone {cs text : List Char} {tail : List UInt16}
    (h : IsEscaped (cs.flatMap encode ++ unit :: tail) text) (hlone : IsLone unit tail) :
    Fails (loneUnit unit.toNat) (At · (text ++ '"' :: rest)) string := by
  obtain ⟨before, after, rfl, hbefore, hafter⟩ := h.exists_append
  rw [List.append_assoc]
  refine .map ((standsFor_of_isEscaped hbefore).fails ?_) _
  cases hafter with
  | cons hcode hs =>
    rw [List.cons_append, List.cons_append, List.append_assoc]
    refine fails_stringBody_escape (.bind_eq (triple_inString 'u') ?_)
    exact (fails_unicodeEscape hcode hs hlone).past

/-- **Escapes are units of a text.** A string of escaped units is read just if they are those of a
text, and as that text, up to its quote. Otherwise the first surrogate in no pair is refused. -/
theorem string_of_isEscaped {units : List UInt16} {text : List Char} {k : Cursor}
    (h : IsEscaped units text) (hk : k.At (text ++ '"' :: rest)) :
    (∀ s, (∃ k', string k = .ok s k') ↔ encodeText s = units) ∧
      (∀ s k', string k = .ok s k' → k'.At rest) ∧
      ((∀ s, encodeText s ≠ units) →
        ∃ (cs : List Char) (unit : UInt16) (tail : List UInt16) (k' : Cursor),
          units = cs.flatMap encode ++ unit :: tail ∧ IsLone unit tail ∧
            string k = .error (loneUnit unit.toNat) k') := by
  have hread {s : String} (hs : encodeText s = units) : ∃ k', string k = .ok s k' ∧ k'.At rest := by
    subst hs
    obtain ⟨_, k', hrun, rfl, hk'⟩ := (triple_string_of_isEscaped h).exists_ok hk
    exact ⟨k', hrun, hk'⟩
  -- units are those of some characters, and then end or go on with a surrogate in no pair
  obtain ⟨cs, tail, hunits, htail⟩ := isResolved units
  rcases tail with - | ⟨unit, tail⟩
  · have htext : encodeText (String.ofList cs) = units := by
      rw [hunits, encodeText, String.toList_ofList, List.append_nil]
    obtain ⟨k₁, hrun₁, hk₁⟩ := hread htext
    have hunique {s : String} {k' : Cursor} (hrun : string k = .ok s k') :
        s = String.ofList cs ∧ k' = k₁ := by
      rw [hrun₁] at hrun
      cases hrun
      exact ⟨rfl, rfl⟩
    refine ⟨fun s => ⟨fun h => ?_, fun hs => ?_⟩, fun s k' hrun => ?_, fun hne => ?_⟩
    · obtain ⟨k', hrun⟩ := h
      rw [(hunique hrun).1, htext]
    · obtain ⟨k', hrun, -⟩ := hread hs
      exact ⟨k', hrun⟩
    · rwa [(hunique hrun).2]
    · exact absurd htext (hne _)
  · subst hunits
    have hlone := htail unit tail rfl
    obtain ⟨l, hfail⟩ := fails_string_of_isLone h hlone k hk
    have hnot {s : String} {k' : Cursor} : string k ≠ .ok s k' := by
      rw [hfail]
      intro h
      cases h
    refine ⟨fun s => ⟨fun h => ?_, fun hs => ?_⟩, fun s k' hrun => ?_, ?_⟩
    · obtain ⟨k', hrun⟩ := h
      exact absurd hrun hnot
    · obtain ⟨k', hrun, -⟩ := hread hs
      exact absurd hrun hnot
    · exact absurd hrun hnot
    · exact fun _ => ⟨cs, unit, tail, l, rfl, hlone, hfail⟩

/-- A high and a low surrogate are one character; the other way round, the low one is refused. -/
theorem string_of_isEscaped_pair :
    IsEscaped [0xD83D, 0xDE00] "\\ud83D\\uDe00".toList ∧
      (ofText "\\ud83D\\uDe00\" x").At ("\\ud83D\\uDe00".toList ++ '"' :: " x".toList) ∧
      encodeText "😀" = [0xD83D, 0xDE00] ∧
      (∃ k, string (ofText "\\ud83D\\uDe00\" x") = .ok "😀" k ∧ k.At " x".toList) ∧
    IsEscaped [0xDE00, 0xD83D] "\\ude00\\uD83D".toList ∧
      (ofText "\\ude00\\uD83D\"").At ("\\ude00\\uD83D".toList ++ '"' :: "".toList) ∧
      (∀ s, encodeText s ≠ [0xDE00, 0xD83D]) ∧
      ∃ (cs : List Char) (unit : UInt16) (tail : List UInt16) (k : Cursor),
        [0xDE00, 0xD83D] = cs.flatMap encode ++ unit :: tail ∧ IsLone unit tail ∧
        string (ofText "\\ude00\\uD83D\"") = .error (loneUnit unit.toNat) k := by
  have hpair : IsEscaped [0xD83D, 0xDE00] "\\ud83D\\uDe00".toList := by
    have hhigh : IsCode 0xD83D ['d', '8', '3', 'D'] := ⟨rfl, by decide, by decide⟩
    have hlow : IsCode 0xDE00 ['D', 'e', '0', '0'] := ⟨rfl, by decide, by decide⟩
    exact .cons hhigh (.cons hlow .nil)
  have hreversed : IsEscaped [0xDE00, 0xD83D] "\\ude00\\uD83D".toList := by
    have hlow : IsCode 0xDE00 ['d', 'e', '0', '0'] := ⟨rfl, by decide, by decide⟩
    have hhigh : IsCode 0xD83D ['D', '8', '3', 'D'] := ⟨rfl, by decide, by decide⟩
    exact .cons hlow (.cons hhigh .nil)
  have hunits : encodeText "😀" = [0xD83D, 0xDE00] := by decide
  have hlone : ∀ s, encodeText s ≠ [0xDE00, 0xD83D] := encodeText_ne_of_isLone (.inl rfl)
  obtain ⟨hiff, hrest, -⟩ := string_of_isEscaped hpair (at_ofText "\\ud83D\\uDe00\" x")
  obtain ⟨k, hk⟩ := (hiff "😀").2 hunits
  obtain ⟨-, -, hrefused⟩ := string_of_isEscaped hreversed (at_ofText "\\ude00\\uD83D\"")
  exact ⟨hpair, at_ofText _, hunits, ⟨k, hk, hrest _ _ hk⟩, hreversed, at_ofText _, hlone,
    hrefused hlone⟩

end Scan

end FormTree
