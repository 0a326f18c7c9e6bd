import FormTree.Proofs.Source.Body

/-!
# Bodies that are not finished

Where a text stops inside of the body of a string or pattern, scanning finds that the input ends too
early, but for one place: behind one, two or three digits of a code unit, which it refuses for being
too few.
-/

namespace FormTree.Scan

open Cursor Text Utf16

/-! ### Strings -/

/-- How many digits of a code unit there are where a text stops behind the first, the second or the
third one. -/
def shortUnit? : List Char → Option Nat
  | '\\' :: 'u' :: cs => if 0 < cs.length && cs.length < 4 then some cs.length else shortUnit? cs
  | '\\' :: _ :: cs => shortUnit? cs
  | _ :: cs => shortUnit? cs
  | [] => none

/-- What the body of a string that stops too early is refused for. -/
def causeAtEnd (cs : List Char) : Cause :=
  match shortUnit? cs with
  | some count =>
    .unsupportedEscape ("invalid character length: " ++ toString count ++ ", should be: 4")
  | none => .endInString

variable {rest cs ds text : List Char} {c : Char}

theorem shortUnit?_cons (hc : c ≠ '\\') : shortUnit? (c :: cs) = shortUnit? cs := by
  rw [shortUnit?.eq_def]
  split
  · rename_i heq
    exact absurd (List.cons.inj heq).1 hc
  · rename_i heq
    exact absurd (List.cons.inj heq).1 hc
  · rename_i heq
    rw [(List.cons.inj heq).2]
  · rename_i heq
    cases heq

/-- A code unit is short if its digits begin and do not all come. -/
theorem shortUnit?_unit (cs : List Char) :
    shortUnit? ('\\' :: 'u' :: cs) =
      if 0 < cs.length && cs.length < 4 then some cs.length else shortUnit? cs := by
  rw [shortUnit?]

/-- After any other escape the search goes on behind it. -/
theorem shortUnit?_escape (hc : c ≠ 'u') : shortUnit? ('\\' :: c :: cs) = shortUnit? cs := by
  rw [shortUnit?.eq_def]
  split
  · rename_i heq
    exact absurd (List.cons.inj (List.cons.inj heq).2).1 hc
  · rename_i heq
    rw [(List.cons.inj (List.cons.inj heq).2).2]
  · rename_i hnot heq
    cases heq
    exact (hnot c cs rfl rfl).elim
  · rename_i heq
    cases heq

/-- What has no backslash in it has no code unit. -/
theorem shortUnit?_append (h : '\\' ∉ ds) : shortUnit? (ds ++ cs) = shortUnit? cs := by
  induction ds with
  | nil => rfl
  | cons d ds ih =>
    obtain ⟨hd, hds⟩ := not_or.1 (mt List.mem_cons.2 h)
    rw [List.cons_append, shortUnit?_cons (Ne.symm hd), ih hds]

theorem backslash_notMem {radix : Nat} (h : ds.all (isDigitIn radix) = true) : '\\' ∉ ds :=
  fun hmem => ne_of_isDigitIn (List.all_eq_true.1 h _ hmem) rfl rfl

/-- Behind all digits of a unit the text goes on. -/
theorem shortUnit?_code {unit : UInt16} (h : IsCode unit ds) :
    shortUnit? ('\\' :: 'u' :: (ds ++ cs)) = shortUnit? cs := by
  have hlength : ¬ (decide (0 < (ds ++ cs).length) && decide ((ds ++ cs).length < 4)) = true := by
    simp [h.length_eq]
  rw [shortUnit?_unit, if_neg hlength,
    shortUnit?_append (backslash_notMem (Bool.and_eq_true_iff.1 h.isNumeral).2)]

/-- Behind an escape the text goes on. -/
theorem IsEscapeOf.shortUnit?_eq (h : IsEscapeOf rest text c) :
    shortUnit? ('\\' :: (text ++ cs)) = shortUnit? cs := by
  cases h with
  | @letter l _ h =>
    have hl : l ≠ 'u' := by
      rintro rfl
      revert h
      simp [letters]
    exact shortUnit?_escape hl
  | unit h => exact shortUnit?_code h
  | pair h h' =>
    rw [List.cons_append, List.append_assoc, shortUnit?_code h]
    exact shortUnit?_code h'
  | octal hdigits =>
    rcases text with - | ⟨d, ds⟩
    · cases hdigits
    · obtain ⟨hd, hds⟩ := Bool.and_eq_true_iff.1 (Bool.and_eq_true_iff.1 hdigits).2
      have hu : d ≠ 'u' := by
        rintro rfl
        cases hd
      rw [List.cons_append, shortUnit?_escape hu, shortUnit?_append (backslash_notMem hds)]

/-- A part of two texts, one behind the other, stops inside of the first one or behind it. -/
theorem inside_or_behind {part more before after : List Char}
    (h : part ++ more = before ++ after) :
    (∃ left, left ≠ [] ∧ before = part ++ left) ∨
      ∃ part', part = before ++ part' ∧ after = part' ++ more := by
  rcases List.append_eq_append_iff.1 h with ⟨left, hbefore, hmore⟩ | ⟨part', hpart, hafter⟩
  · by_cases hleft : left = []
    · subst hleft
      rw [List.append_nil] at hbefore
      exact .inr ⟨[], by rw [hbefore, List.append_nil], hmore.symm⟩
    · exact .inl ⟨left, hleft, hbefore⟩
  · exact .inr ⟨part', hpart, hafter⟩

/-! #### Inside of an escape -/

/-- At the end of the input there is no character in a string. -/
theorem fails_inString : Fails .endInString (At · []) inString := .bind_eq triple_next_nil .throw

theorem fails_stringBody_nil : Fails .endInString (At · []) stringBody := by
  rw [stringBody_eq]
  exact .bind_eq triple_next_nil .throw

/-- Some digits of a unit are too few. -/
theorem fails_codeUnit (h : ds.all (isDigitIn 16) = true) (hlt : ds.length < 4) :
    Fails (causeAtEnd ('\\' :: 'u' :: ds)) (At · ds) codeUnit := by
  rcases ds with - | ⟨d, ds⟩
  · exact .bind fails_inString
  · have hshort : shortUnit? ('\\' :: 'u' :: d :: ds) = some (ds.length + 1) := by
      rw [shortUnit?_unit, if_pos (by simpa using hlt), List.length_cons]
    have hnumeral : isNumeral 16 (d :: ds) = true := h
    have hcount : ¬ ds.length + 1 = 4 := Nat.ne_of_lt hlt
    have hle : ds.length < 4 := Nat.lt_of_succ_lt hlt
    rw [causeAtEnd, hshort]
    have hdigits : Triple true (Past · ds) (digitsFrom d 16 4) fun a k =>
        a = (ds.length + 1, Numeral.value 16 (d :: ds)) ∧ k.At [] := by
      have htriple : Triple true (At · (ds ++ [])) (digitsFrom d 16 4) _ :=
        triple_digitsFrom hnumeral hle (.inr (by simp))
      rw [List.append_nil] at htriple
      exact htriple.past
    exact .bind_eq (triple_inString d) (.bind_eq hdigits (.ite_false hcount .throw))

/-- A part of the code of a unit has fewer digits. -/
theorem fails_codeUnit_of_isCode {unit : UInt16} {part more : List Char}
    (h : IsCode unit (part ++ more)) (hmore : more ≠ []) :
    Fails (causeAtEnd ('\\' :: 'u' :: part)) (At · part) codeUnit := by
  have hall := (Bool.and_eq_true_iff.1 h.isNumeral).2
  rw [List.all_append, Bool.and_eq_true] at hall
  have hlength := h.length_eq
  rw [List.length_append] at hlength
  have hpos := List.length_pos_of_ne_nil hmore
  exact fails_codeUnit hall.1 (by omega)

/-- Inside of the escape of a low surrogate. -/
theorem fails_lowUnit {low : UInt16} {part more : List Char} (h : IsCode low ds)
    (htext : '\\' :: 'u' :: ds = part ++ more) (hmore : more ≠ []) (high : Nat) :
    Fails (causeAtEnd part) (At · part) (lowUnit high) := by
  rcases part with - | ⟨c, - | ⟨d, part⟩⟩
  · exact .bind fails_inString
  · obtain ⟨rfl, -⟩ := List.cons.inj htext
    refine .bind_eq (triple_inString '\\') (.ite_true rfl ?_)
    exact .bind fails_inString.past
  · simp only [List.cons_append, List.cons.injEq] at htext
    obtain ⟨rfl, rfl, rfl⟩ := htext
    refine .bind_eq (triple_inString '\\') (.ite_true rfl ?_)
    refine .bind_eq (triple_inString 'u').past (.ite_true rfl ?_)
    exact .bind (fails_codeUnit_of_isCode h hmore).past

/-- Inside of the codes of two surrogates. -/
theorem fails_unicodeEscape_of_pair {high low : UInt16} {digits digits' part more : List Char}
    (h : IsCode high digits) (h' : IsCode low digits') (hc : encode c = [high, low])
    (htext : part ++ more = digits ++ '\\' :: 'u' :: digits') (hmore : more ≠ []) :
    Fails (causeAtEnd ('\\' :: 'u' :: part)) (At · part) unicodeEscape := by
  have hencoded := isEncoded_encode c
  rw [hc] at hencoded
  cases hencoded with
  | pair hhigh hlow =>
    rcases inside_or_behind htext with ⟨left, hleft, rfl⟩ | ⟨part', rfl, hpart⟩
    · exact .bind (fails_codeUnit_of_isCode h hleft)
    · rw [causeAtEnd, shortUnit?_code h]
      refine .bind_eq (triple_codeUnit_of_isCode h) ?_
      rw [high_eq]
      exact .ite_true hhigh (.bind (fails_lowUnit h' hpart hmore _))

/-- Fewer octal digits are an escape as well, where nothing is left behind them. -/
theorem isEscapeOf_octal {part more : List Char} (hpart : part ≠ [])
    (hdigits : isNumeral 8 (part ++ more) = true) (hlength : (part ++ more).length ≤ 3)
    (hle : Numeral.value 8 (part ++ more) ≤ 0xFF) :
    IsEscapeOf [] part (Char.ofNat (Numeral.value 8 part)) := by
  have hall := (Bool.and_eq_true_iff.1 hdigits).2
  rw [List.all_append, Bool.and_eq_true] at hall
  rw [List.length_append] at hlength
  have hnumeral : isNumeral 8 part = true := by simp [isNumeral, hpart, hall.1]
  have hvalue := Nat.le_trans (Numeral.value_le_append (by decide) part more) hle
  exact .octal hnumeral (by omega) (.inr (by simp)) hvalue

/-- Inside of an escape. -/
theorem fails_of_isEscapeOf {part more : List Char} (h : IsEscapeOf rest (part ++ more) c)
    (hmore : more ≠ []) : Fails (causeAtEnd ('\\' :: part)) (At · ('\\' :: part)) stringBody := by
  rcases part with - | ⟨d, ds⟩
  · exact fails_stringBody_escape (.bind fails_inString)
  · generalize htext : d :: ds ++ more = text at h
    cases h with
    | letter h =>
      obtain ⟨-, hnil⟩ := List.cons.inj htext
      exact absurd (List.append_eq_nil_iff.1 hnil).2 hmore
    | unit h hc =>
      obtain ⟨rfl, rfl⟩ := List.cons.inj htext
      refine fails_stringBody_escape (.bind_eq (triple_inString 'u') (.bind ?_))
      exact (fails_codeUnit_of_isCode h hmore).past
    | pair h h' hc =>
      obtain ⟨rfl, hcodes⟩ := List.cons.inj htext
      refine fails_stringBody_escape (.bind_eq (triple_inString 'u') ?_)
      exact (fails_unicodeEscape_of_pair h h' hc hcodes hmore).past
    | octal hdigits hlength hend hle =>
      subst htext
      -- A part of an octal code is an octal code itself, so only the quote is missing behind it.
      have hoctal := isEscapeOf_octal (List.cons_ne_nil d ds) hdigits hlength hle
      have hcause : causeAtEnd ('\\' :: (d :: ds ++ [])) = .endInString := by
        rw [causeAtEnd, hoctal.shortUnit?_eq]
        rfl
      rw [← List.append_nil (d :: ds), hcause]
      exact (StandsFor.escape hoctal.triple_escape).fails fails_stringBody_nil

/-- **A string that stops too early.** Where a part of the body of a string is all there is, the
string is refused for the end of the input, or for the digits of a code unit that are missing. -/
theorem IsBody.fails_stringBody {cs part more : List Char} (h : IsBody (part ++ more) cs) :
    Fails (causeAtEnd part) (At · part) stringBody := by
  generalize htext : part ++ more = text at h
  induction h generalizing part more with
  | nil =>
    obtain ⟨rfl, -⟩ := List.append_eq_nil_iff.1 htext
    exact fails_stringBody_nil
  | plain hquote hbackslash h ih =>
    rcases part with - | ⟨c, part⟩
    · exact fails_stringBody_nil
    · obtain ⟨rfl, hrest⟩ := List.cons.inj htext
      rw [causeAtEnd, shortUnit?_cons hbackslash]
      exact (StandsFor.plain hquote hbackslash).fails (ih hrest)
  | @escape escape text _ _ hc h ih =>
    rcases part with - | ⟨c, part⟩
    · exact fails_stringBody_nil
    · obtain ⟨rfl, hrest⟩ := List.cons.inj htext
      rcases inside_or_behind hrest with ⟨left, hleft, rfl⟩ | ⟨part', rfl, rfl⟩
      · exact fails_of_isEscapeOf hc hleft
      · rw [causeAtEnd, hc.shortUnit?_eq]
        have hhead : ∀ d ∈ part'.head?, d ∈ (part' ++ more ++ ['"']).head? := by
          rcases part' with - | ⟨_, _⟩ <;> simp
        exact (StandsFor.escape (hc.of_head hhead).triple_escape).fails (ih rfl)

/-! ### Patterns -/

theorem fails_patternBody_nil : Fails .endInPattern (At · []) patternBody := by
  rw [patternBody_eq]
  exact .bind_eq triple_next_nil .throw

/-- **A pattern that stops too early** is refused for the end of the input wherever it stops. -/
theorem fails_patternBody {part more : List Char} (h : isPatternBody (part ++ more) = true) :
    Fails .endInPattern (At · part) patternBody := by
  generalize htext : part ++ more = text at h
  fun_induction isPatternBody text generalizing part with
  | case1 =>
    obtain ⟨rfl, -⟩ := List.append_eq_nil_iff.1 htext
    exact fails_patternBody_nil
  | case2 | case3 => cases h
  | case4 d cs ih =>
    -- the part may also end right behind the backslash
    rcases part with - | ⟨c, - | ⟨d', part⟩⟩
    · exact fails_patternBody_nil
    · obtain ⟨rfl, -⟩ := List.cons.inj htext
      rw [patternBody_eq]
      exact .bind_eq (triple_next '\\') (.bind_eq triple_next_nil.past .throw)
    · simp only [List.cons_append, List.cons.injEq] at htext
      obtain ⟨rfl, rfl, hrest⟩ := htext
      rw [patternBody_eq]
      refine .bind_eq (triple_next '\\') (.bind_eq (triple_next d').past ?_)
      exact .map (ih hrest h).past _
  | case5 c cs hquote hlast hbackslash ih =>
    rcases part with - | ⟨c', part⟩
    · exact fails_patternBody_nil
    · obtain ⟨rfl, hrest⟩ := List.cons.inj htext
      have hc : ¬ (c' == '"') = true := fun hc => hquote (eq_of_beq hc)
      rw [patternBody_eq]
      refine .bind_eq (triple_next c') (.ite_false hc ?_)
      refine .ite_false (ne_backslash hlast hbackslash) ?_
      exact .map (ih hrest h).past _

end FormTree.Scan
