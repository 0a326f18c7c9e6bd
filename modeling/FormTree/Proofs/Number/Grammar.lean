import FormTree.Proofs.Number.Float

/-!
# The grammar of number tokens

Which tokens denote a number, and which number that is. After an optional sign a token is an integer
with a radix of its own or one that its first characters tell, a floating-point number, a decimal,
or a ratio. Nothing else is a number, and no token denotes two.
-/

namespace FormTree

open Numeral Text

namespace Numeral

/-- The integer that digits with a sign denote. -/
def signedValue (radix : Nat) (negative : Bool) (digits : List Char) : Int :=
  if negative then -(value radix digits : Int) else value radix digits

/-- Whether characters are some text after an optional sign, which may be a minus sign. -/
inductive IsSigned : Bool → List Char → List Char → Prop
  | unsigned (text : List Char) : IsSigned false text text
  | plus (text : List Char) : IsSigned false text ('+' :: text)
  | minus (text : List Char) : IsSigned true text ('-' :: text)

end Numeral

/-! ### Layouts -/

namespace Layout

/-- Whether what follows a mantissa, if anything does, is an exponent: a mark and digits with an
optional sign. -/
inductive IsExponent : Option (Char × List Char) → Int → Prop
  | absent : IsExponent none 0
  | present {mark : Char} {negative : Bool} {digits cs : List Char}
      (hmark : Decimal.isExponentMark mark = true) (hsign : IsSigned negative digits cs)
      (hdigits : isNumeral 10 digits = true) :
      IsExponent (some (mark, cs)) (signedValue 10 negative digits)

/-- Whether a layout is made of digits and of an exponent. -/
structure IsScaled (l : Layout) (exponent : Int) : Prop where
  whole : isNumeral 10 l.whole = true
  fraction : (l.fraction.getD []).all isDigit = true
  exponent : IsExponent l.exponent exponent

/-- How many digits of a layout stand after the point. -/
def places (l : Layout) : Nat := (l.fraction.getD []).length

end Layout

namespace Number

/-- The spellings of an integer without a sign: its radix, and its digits without what tells the
radix. A decimal integer other than zero begins with no zero. -/
inductive IsInteger : Nat → List Char → List Char → Prop
  | zero : IsInteger 10 ['0'] ['0']
  | decimal {digits : List Char} (h : isNumeral 10 digits = true)
      (hhead : digits.head? ≠ some '0') :
      IsInteger 10 digits digits
  | hexadecimal {mark : Char} {digits : List Char} (hmark : mark = 'x' ∨ mark = 'X')
      (h : isNumeral 16 digits = true) : IsInteger 16 digits ('0' :: mark :: digits)
  | octal {digits : List Char} (h : isNumeral 8 digits = true) : IsInteger 8 digits ('0' :: digits)

/-- What a token without its sign denotes. -/
inductive Denotes (negative : Bool) : List Char → Number → Prop
  | integer {radix : Nat} {digits text : List Char} (h : IsInteger radix digits text) :
      Denotes negative text (ofInt (signedValue radix negative digits))
  | big {radix : Nat} {digits text : List Char} (h : IsInteger radix digits text) :
      Denotes negative (text ++ ['N']) (.big (signedValue radix negative digits))
  | radix {radix digits : List Char} {mark : Char} (hradix : isNumeral 10 radix = true)
      (hhead : radix.head? ≠ some '0') (hlength : radix.length ≤ 2) (hlow : 2 ≤ value 10 radix)
      (hhigh : value 10 radix ≤ 36) (hmark : mark = 'r' ∨ mark = 'R')
      (h : isNumeral (value 10 radix) digits = true) :
      Denotes negative (radix ++ mark :: digits)
        (ofInt (signedValue (value 10 radix) negative digits))
  | float {l : Layout} {exponent : Int} {x : Binary64} (h : l.IsScaled exponent)
      (hfractional : l.isFractional = true)
      (hx : x.IsNearest negative (value 10 l.digits * 10 ^ (exponent - l.places))) :
      Denotes negative l.chars (.float x)
  | decimal {l : Layout} {exponent : Int} (h : l.IsScaled exponent)
      (hexponent : fitsInt64 exponent = true) (hscale : fitsInt64 (l.places - exponent) = true) :
      Denotes negative (l.chars ++ ['M'])
        (.decimal ⟨signedValue 10 negative l.digits, l.places - exponent⟩)
  | quotient {num den : List Char} {n : Int} (hnum : isNumeral 10 num = true)
      (hden : isNumeral 10 den = true) (hzero : value 10 den ≠ 0)
      (h : signedValue 10 negative num = n * value 10 den) :
      Denotes negative (num ++ '/' :: den) (ofInt n)
  | ratio {num den : List Char} {q : ℚ} (hnum : isNumeral 10 num = true)
      (hden : isNumeral 10 den = true) (hzero : value 10 den ≠ 0) (hq : q.den ≠ 1)
      (h : (signedValue 10 negative num : ℚ) = q * value 10 den) :
      Denotes negative (num ++ '/' :: den) (.ratio q)

variable {negative : Bool} {cs text digits : List Char} {radix : Nat} {n : Number}

/-! ### Signs -/

/-- Splitting off a sign splits the text. -/
theorem isSigned_splitSign (cs : List Char) : IsSigned (splitSign cs).1 (splitSign cs).2 cs := by
  rw [splitSign.eq_def]
  split
  · exact .minus _
  · exact .plus _
  · exact .unsigned _

/-- Where a digit follows a sign, splitting gives the sign and the rest. -/
theorem splitSign_of_isSigned {d : Char} (h : IsSigned negative (d :: text) cs)
    (hd : isDigit d = true) : splitSign cs = (negative, d :: text) := by
  cases h with
  | unsigned => exact (splitSign_signed hd :
      splitSign (signed false (d :: text)) = (false, d :: text))
  | plus => rfl
  | minus => rfl

/-- A suffix is behind the sign. -/
theorem splitSign_append (h : cs ≠ []) (suffix : List Char) :
    splitSign (cs ++ suffix) = ((splitSign cs).1, (splitSign cs).2 ++ suffix) := by
  rcases cs with - | ⟨c, cs⟩
  · exact absurd rfl h
  · rw [List.cons_append]
    by_cases hminus : c = '-'
    · rw [hminus]
      rfl
    · by_cases hplus : c = '+'
      · rw [hplus]
        rfl
      · simp [splitSign, hminus, hplus]

theorem splitSuffix_cons {c d : Char} (h : text ≠ []) :
    splitSuffix c (d :: text) = (d :: (splitSuffix c text).1, (splitSuffix c text).2) := by
  simp only [splitSuffix, List.getLast?_cons_of_ne_nil h, List.dropLast_cons_of_ne_nil h]
  split <;> rfl

/-- What a suffix has been split off from. -/
theorem append_of_splitSuffix {c : Char} {body : List Char} {forced : Bool}
    (h : splitSuffix c cs = (body, forced)) : cs = body ++ if forced then [c] else [] := by
  rw [splitSuffix] at h
  split at h
  · rename_i hlast
    cases h
    exact (List.dropLast_append_getLast? c (eq_of_beq hlast)).symm
  · cases h
    exact (List.append_nil cs).symm

end Number

namespace Decimal

variable {isSeparator : Char → Bool} {cs before after : List Char} {c d : Char}

theorem splitFirst_cons (isSeparator : Char → Bool) (h : isSeparator c = false) :
    splitFirst isSeparator (c :: cs) =
      (c :: (splitFirst isSeparator cs).1, (splitFirst isSeparator cs).2) := by
  simp only [splitFirst, List.span_eq_takeWhile_dropWhile, List.takeWhile_cons,
    List.dropWhile_cons, h]
  rcases List.dropWhile (!isSeparator ·) cs with - | ⟨d, ds⟩ <;> rfl

theorem splitFirst_cons_of_isSeparator (h : isSeparator c = true) :
    splitFirst isSeparator (c :: cs) = ([], some cs) :=
  (splitFirst_append rfl h : splitFirst isSeparator ([] ++ c :: cs) = ([], some cs))

/-- A text that no separator splits is its first part. -/
theorem eq_of_splitFirst_none (h : splitFirst isSeparator cs = (before, none)) : cs = before := by
  induction cs generalizing before with
  | nil => exact congrArg Prod.fst h
  | cons c cs ih =>
    rcases hc : isSeparator c with - | -
    · rw [splitFirst_cons _ hc, Prod.mk.injEq] at h
      rw [← h.1]
      exact congrArg (c :: ·) (ih (Prod.ext rfl h.2))
    · rw [splitFirst_cons_of_isSeparator hc] at h
      cases h

/-- A text that is split is put together from its parts and a separator. -/
theorem eq_of_splitFirst_some (h : splitFirst isSeparator cs = (before, some after)) :
    ∃ c, isSeparator c = true ∧ cs = before ++ c :: after := by
  induction cs generalizing before with
  | nil => cases h
  | cons c cs ih =>
    rcases hc : isSeparator c with - | -
    · rw [splitFirst_cons _ hc, Prod.mk.injEq] at h
      obtain ⟨d, hd, hcs⟩ := ih (Prod.ext rfl h.2)
      exact ⟨d, hd, by rw [← h.1, List.cons_append, ← hcs]⟩
    · rw [splitFirst_cons_of_isSeparator hc] at h
      cases h
      exact ⟨c, hc, rfl⟩

/-! ### Plus signs -/

/-- A plus sign before a digit makes no difference. -/
theorem integer?_plus (hd : isDigit d = true) :
    integer? 10 ('+' :: d :: cs) = integer? 10 (d :: cs) := by
  have hplus : d ≠ '+' := ne_of_isDigit hd (by decide)
  have hminus : d ≠ '-' := ne_of_isDigit hd (by decide)
  simp [integer?, natural?, hplus, hminus]

/-- A plus sign before a decimal changes nothing. -/
theorem parse?_plus (hd : isDigit d = true) :
    parse? (String.ofList ('+' :: d :: cs)) = parse? (String.ofList (d :: cs)) := by
  have hmark : isExponentMark d = false := by
    have he : d ≠ 'e' := ne_of_isDigit hd (by decide)
    have hE : d ≠ 'E' := ne_of_isDigit hd (by decide)
    simp [isExponentMark, he, hE]
  have hpoint : (d == '.') = false := by simpa using ne_of_isDigit hd (by decide)
  have hplusMark : isExponentMark '+' = false := by decide
  have hplusPoint : ('+' == '.') = false := by decide
  simp only [parse?, String.toList_ofList, splitFirst_cons _ hplusMark, splitFirst_cons _ hmark,
    splitFirst_cons (· == '.') hplusPoint, splitFirst_cons (· == '.') hpoint]
  refine congrArg (Option.bind _) (funext fun exponent => ?_)
  rw [ofParts?, ofParts?, List.cons_append, List.cons_append, integer?_plus hd]

end Decimal

/-! ### Exponents -/

namespace Layout

variable {l : Layout} {e : Option (Char × List Char)} {n : Int}

/-- An exponent is read as the one that it denotes. -/
theorem IsExponent.floatExponent?_eq (h : IsExponent e n) :
    Number.floatExponent? (e.map Prod.snd) = some n := by
  cases h with
  | absent => rfl
  | present hmark hsign hdigits =>
    obtain ⟨d, rest, rfl, hd⟩ := exists_cons_of_isNumeral hdigits
    rw [Option.map_some, Number.floatExponent?, Number.splitSign_of_isSigned hsign hd]
    dsimp only
    rw [if_pos hdigits, signedValue]

theorem IsExponent.isPlain (h : IsExponent e n) {mark : Char} {cs : List Char}
    (he : e = some (mark, cs)) :
    Decimal.isExponentMark mark = true ∧ cs.all isInExponent = true := by
  cases h with
  | absent => cases he
  | present hmark hsign hdigits =>
    cases he
    refine ⟨hmark, List.all_eq_true.2 fun c hc => ?_⟩
    have hdigit {digits : List Char} (h : isNumeral 10 digits = true) (hc : c ∈ digits) :
        isInExponent c = true := by
      simp [isInExponent, isDigit_of_mem h hc]
    cases hsign with
    | unsigned => exact hdigit hdigits hc
    | plus | minus =>
      rcases List.mem_cons.1 hc with rfl | hc
      · rfl
      · exact hdigit hdigits hc

/-- An exponent that is read behind a mark is one of the grammar. -/
theorem isExponent_of_floatExponent?
    (hmark : ∀ mark cs, e = some (mark, cs) → Decimal.isExponentMark mark = true)
    (h : Number.floatExponent? (e.map Prod.snd) = some n) : IsExponent e n := by
  rcases e with - | ⟨mark, cs⟩
  · cases h
    exact .absent
  · obtain ⟨hdigits, hn⟩ := Option.ite_none_right_eq_some.1 h
    cases hn
    exact .present (hmark mark cs rfl) (Number.isSigned_splitSign cs) hdigits

theorem IsScaled.isPlain (h : l.IsScaled n) : l.IsPlain where
  ne_nil := (isNumeral_ten_iff.1 h.whole).1
  all_whole := (isNumeral_ten_iff.1 h.whole).2
  all_fraction := h.fraction
  exponent _ _ := h.exponent.isPlain

/-- What a layout with a sign reads as, as a decimal. -/
theorem IsScaled.parse?_signed (h : l.IsScaled n) (negative : Bool) :
    Decimal.parse? (String.ofList (signed negative l.chars)) =
      if fitsInt64 n then
        if fitsInt64 (l.places - n) then
          some ⟨signedValue 10 negative l.digits, l.places - n⟩
        else none
      else none := by
  rw [Layout.parse?_signed h.isPlain, Number.exponent?_eq_filter, h.exponent.floatExponent?_eq,
    Option.filter_some]
  split <;> rfl

end Layout

namespace Number

variable {negative : Bool} {cs text digits : List Char} {radix : Nat} {n : Number} {d : Char}

/-! ### Signs of tokens -/

/-- What is before a suffix begins with a digit if the token does. -/
theorem exists_splitSuffix_eq (hd : isDigit d = true) (cs : List Char) :
    ∃ rest, (splitSuffix 'M' (d :: cs)).1 = d :: rest := by
  rcases cs with - | ⟨c, cs⟩
  · have hM : 'M' ∉ [d] := by simpa using (ne_of_isDigit hd (by decide)).symm
    exact ⟨[], by rw [splitSuffix_of_notMem hM]⟩
  · exact ⟨_, by rw [splitSuffix_cons (List.cons_ne_nil c cs)]⟩

/-- A plus sign before a digit makes no difference to fractional numbers either. -/
theorem floatToken?_plus (hd : isDigit d = true) (cs : List Char) :
    floatToken? ('+' :: d :: cs) = floatToken? (d :: cs) := by
  obtain ⟨rest, hrest⟩ := exists_splitSuffix_eq hd cs
  have hsign : splitSign (d :: rest) = (false, d :: rest) :=
    splitSign_of_isSigned (.unsigned _) hd
  have hplus : splitSign ('+' :: d :: rest) = (false, d :: rest) := rfl
  simp only [floatToken?, splitSuffix_cons (List.cons_ne_nil d cs), hrest, hsign, hplus,
    Decimal.parse?_plus hd]

/-- A plus sign before a token changes nothing. -/
theorem ofToken?_plus (hd : isDigit d = true) (cs : List Char) :
    ofToken? (String.ofList ('+' :: d :: cs)) = ofToken? (String.ofList (d :: cs)) := by
  have hsign : splitSign (d :: cs) = (false, d :: cs) := splitSign_of_isSigned (.unsigned _) hd
  have hplus : splitSign ('+' :: d :: cs) = (false, d :: cs) := rfl
  simp only [ofToken?, String.toList_ofList, integerToken?, ratioToken?, hsign, hplus,
    floatToken?_plus hd]

/-- Only whether the sign is a minus sign matters. -/
theorem ofToken?_of_isSigned (h : IsSigned negative text cs) (hd : isDigit d = true)
    (htext : text.head? = some d) :
    ofToken? (String.ofList cs) = ofToken? (String.ofList (signed negative text)) := by
  rcases text with - | ⟨c, text⟩
  · cases htext
  · cases htext
    cases h with
    | unsigned => rfl
    | plus => exact ofToken?_plus hd text
    | minus => rfl

/-! ### Quotients -/

/-- The quotient of two integers in lowest terms. -/
theorem ofRatio?_of_eq_mul {num : Int} {den : Nat} {q : ℚ} (hzero : den ≠ 0)
    (h : (num : ℚ) = q * den) :
    ofRatio? num den = some (if q.den = 1 then ofInt q.num else .ratio q) := by
  have hden : (den : ℚ) ≠ 0 := Nat.cast_ne_zero.2 hzero
  have hq : Rat.divInt num den = q := by
    rw [Rat.divInt_eq_div, h, Int.cast_natCast, mul_div_cancel_right₀ q hden]
  rw [ofRatio?_of_ne_zero (by exact_mod_cast hzero), hq, ofRat]

/-- An integer where the denominator divides the numerator. -/
theorem ofRatio?_mul {n : Int} {den : Nat} (hzero : den ≠ 0) :
    ofRatio? (n * den) den = some (ofInt n) := by
  rw [ofRatio?_of_eq_mul (q := n) hzero (by push_cast; rfl)]
  rfl

/-! ### What the grammar derives is read -/

/-- What begins with a zero and is longer is hexadecimal, octal or refused. -/
theorem plainInteger?_zero_cons (c : Char) (cs : List Char) :
    plainInteger? ('0' :: c :: cs) =
      if (c == 'x' || c == 'X') && isNumeral 16 cs then some (some (cs, 16))
      else if isNumeral 8 (c :: cs) then some (some (c :: cs, 8))
      else if isNumeral 10 (c :: cs) then some none
      else none := by
  rw [plainInteger?.eq_def]
  split
  · rename_i heq
    cases heq
  · rename_i heq
    cases heq
    by_cases h : ((c == 'x' || c == 'X') && isNumeral 16 cs) = true
    · dsimp only
      rw [if_pos h, if_pos h]
    · dsimp only
      rw [if_neg h, if_neg h]
  · rename_i hzero
    exact absurd rfl (hzero _)

/-- An integer that does not begin with zero is decimal. -/
theorem plainInteger?_of_head?_ne (h : cs.head? ≠ some '0') :
    plainInteger? cs = if isNumeral 10 cs then some (some (cs, 10)) else none := by
  rw [plainInteger?.eq_def]
  split
  · exact absurd rfl h
  · exact absurd rfl h
  · rfl

/-- Decimal digits have the shape of an integer, if only of one that is refused. -/
theorem plainInteger?_ne_none (h : isNumeral 10 cs = true) : plainInteger? cs ≠ none := by
  by_cases hhead : cs.head? = some '0'
  · rcases cs with - | ⟨c, - | ⟨d, rest⟩⟩
    · cases hhead
    · cases hhead
      nofun
    · cases hhead
      have hrest : isNumeral 10 (d :: rest) = true :=
        isNumeral_of_all (Bool.and_eq_true_iff.1 (isNumeral_ten_iff.1 h).2).2 (List.cons_ne_nil _ _)
      rw [plainInteger?_zero_cons, hrest, if_pos rfl]
      split
      · nofun
      · split <;> nofun
  · rw [plainInteger?_of_head?_ne hhead, if_pos h]
    nofun

namespace IsInteger

variable (h : IsInteger radix digits text)
include h

theorem isNumeral_digits : isNumeral radix digits = true := by
  cases h with
  | zero => rfl
  | decimal h => exact h
  | hexadecimal _ h => exact h
  | octal h => exact h

/-- The radix that an integer without a mark has is between two and sixteen. -/
theorem radix_bounds : 2 ≤ radix ∧ radix ≤ 16 := by
  cases h <;> decide

theorem head? : ∃ d, text.head? = some d ∧ isDigit d = true := by
  cases h with
  | decimal h =>
    obtain ⟨d, rest, rfl, hd⟩ := exists_cons_of_isNumeral h
    exact ⟨d, rfl, hd⟩
  | zero | hexadecimal | octal => exact ⟨'0', rfl, rfl⟩

/-- An integer has nothing in it that other tokens are told by. -/
theorem notMem {c : Char} (hc : isDigitIn 16 c = false) (hx : c ≠ 'x') (hX : c ≠ 'X') :
    c ∉ text := by
  have hdigits : c ∉ digits := by
    intro hmem
    have hdigit := List.all_eq_true.1 (Bool.and_eq_true_iff.1 h.isNumeral_digits).2 c hmem
    rw [isDigitIn_mono h.radix_bounds.2 hdigit] at hc
    cases hc
  have hzero : c ≠ '0' := by
    rintro rfl
    cases hc
  cases h with
  | zero | decimal => exact hdigits
  | hexadecimal hmark => rcases hmark with rfl | rfl <;> simp [hzero, hx, hX, hdigits]
  | octal => simp [hzero, hdigits]

/-- Every spelling of an integer is taken apart into its digits and its radix. -/
theorem plainInteger?_eq : plainInteger? text = some (some (digits, radix)) := by
  cases h with
  | zero => rfl
  | decimal hdigits hhead => rw [plainInteger?_of_head?_ne hhead, if_pos hdigits]
  | hexadecimal hmark hdigits => rw [plainInteger?_zero_cons, if_pos (by simp [hmark, hdigits])]
  | octal hdigits =>
    obtain ⟨hne, hall⟩ := Bool.and_eq_true_iff.1 hdigits
    rcases digits with - | ⟨d, rest⟩
    · cases hne
    · have hd : isDigitIn 8 d = true := List.all_eq_true.1 hall d List.mem_cons_self
      have hmark : ¬ (d = 'x' ∨ d = 'X') := by rintro (rfl | rfl) <;> cases hd
      rw [plainInteger?_zero_cons, if_neg (by simpa using fun h => absurd h hmark), if_pos hdigits]

theorem ofDigits?_eq (negative forceBig : Bool) :
    ofDigits? (String.ofList digits) radix negative forceBig =
      some (if forceBig then .big (signedValue radix negative digits)
        else ofInt (signedValue radix negative digits)) := by
  have hbounds := h.radix_bounds
  exact ofDigits?_of_isNumeral hbounds.1 (by omega) h.isNumeral_digits negative forceBig

/-- Every spelling of an integer is a token of it, behind either sign. -/
theorem ofToken?_eq :
    ofToken? (String.ofList (signed negative text)) =
      some (ofInt (signedValue radix negative digits)) := by
  obtain ⟨d, hhead, hd⟩ := h.head?
  have hN : 'N' ∉ text := h.notMem (by decide) (by decide) (by decide)
  rw [ofToken?, String.toList_ofList, integerToken?_signed hhead hd
    (h.notMem (by decide) (by decide) (by decide)) (h.notMem (by decide) (by decide) (by decide))
    (splitSuffix_of_notMem hN), h.plainInteger?_eq]
  exact h.ofDigits?_eq negative false

/-- With the suffix of a big integer it is a token of that. -/
theorem ofToken?_big_eq :
    ofToken? (String.ofList (signed negative (text ++ ['N']))) =
      some (.big (signedValue radix negative digits)) := by
  obtain ⟨d, hhead, hd⟩ := h.head?
  have hhead : (text ++ ['N']).head? = some d := by
    rw [List.head?_append, hhead]
    rfl
  have hnotMem {c : Char} (hc : isDigitIn 16 c = false) (hx : c ≠ 'x') (hX : c ≠ 'X')
      (hN : c ≠ 'N') : c ∉ text ++ ['N'] := by
    simp [h.notMem hc hx hX, hN]
  rw [ofToken?, String.toList_ofList, integerToken?_signed hhead hd
    (hnotMem (by decide) (by decide) (by decide) (by decide))
    (hnotMem (by decide) (by decide) (by decide) (by decide)) (splitSuffix_append 'N' text),
    h.plainInteger?_eq]
  exact h.ofDigits?_eq negative true

end IsInteger

/-- A zero before decimal digits that are not all octal is refused. -/
theorem ofToken?_of_not_octal {suffix : List Char} (hdecimal : isNumeral 10 digits = true)
    (hoctal : isNumeral 8 digits = false) (hsuffix : suffix ∈ [[], ['N']]) :
    ofToken? (String.ofList (signed negative ('0' :: digits ++ suffix))) = none := by
  have hzero : isNumeral 10 ('0' :: digits) = true :=
    isNumeral_of_all (Bool.and_eq_true_iff.2 ⟨rfl, (isNumeral_ten_iff.1 hdecimal).2⟩)
      (List.cons_ne_nil _ _)
  have hplain : plainInteger? ('0' :: digits) = some none := by
    obtain ⟨d, rest, rfl, hd⟩ := exists_cons_of_isNumeral hdecimal
    have hx : d ≠ 'x' := ne_of_isDigit hd (by decide)
    have hX : d ≠ 'X' := ne_of_isDigit hd (by decide)
    rw [plainInteger?_zero_cons, if_neg (by simp [hx, hX]), hoctal, hdecimal]
    rfl
  have hbody : ∃ forceBig, splitSuffix 'N' ('0' :: digits ++ suffix) =
      ('0' :: digits, forceBig) := by
    simp only [List.mem_cons, List.not_mem_nil, or_false] at hsuffix
    rcases hsuffix with rfl | rfl
    · rw [List.append_nil]
      exact ⟨false, splitSuffix_of_notMem (notMem_of_isNumeral hzero (by decide))⟩
    · exact ⟨true, splitSuffix_append 'N' _⟩
  -- Neither the mark of a radix nor that of a ratio is among these characters.
  have hmark {c : Char} (hc : isDigit c = false) (hN : c ≠ 'N') : c ∉ '0' :: digits ++ suffix := by
    simp only [List.mem_cons, List.not_mem_nil, or_false] at hsuffix
    rcases hsuffix with rfl | rfl
    · rw [List.append_nil]
      exact notMem_of_isNumeral hzero hc
    · rw [List.mem_append, List.mem_singleton]
      exact not_or.2 ⟨notMem_of_isNumeral hzero hc, hN⟩
  obtain ⟨forceBig, hbody⟩ := hbody
  rw [ofToken?, String.toList_ofList, integerToken?_signed rfl (by decide : isDigit '0' = true)
    (hmark (by decide) (by decide)) (hmark (by decide) (by decide)) hbody, hplain]

/-- Digits behind a radix of one or two digits are an integer in that radix. -/
theorem ofToken?_radix {radix digits : List Char} {mark : Char} (hradix : isNumeral 10 radix = true)
    (hhead : radix.head? ≠ some '0') (hlength : radix.length ≤ 2) (hlow : 2 ≤ value 10 radix)
    (hhigh : value 10 radix ≤ 36) (hmark : mark = 'r' ∨ mark = 'R')
    (h : isNumeral (value 10 radix) digits = true) :
    ofToken? (String.ofList (signed negative (radix ++ mark :: digits))) =
      some (ofInt (signedValue (value 10 radix) negative digits)) := by
  have hsplit : Decimal.splitFirst (fun c => c == 'r' || c == 'R') (radix ++ mark :: digits) =
      (radix, some digits) := by
    refine Decimal.splitFirst_append (List.all_eq_true.2 fun c hc => ?_) (by simpa using hmark)
    have hdigit := isDigit_of_mem hradix hc
    have hr : c ≠ 'r' := ne_of_isDigit hdigit (by decide)
    have hR : c ≠ 'R' := ne_of_isDigit hdigit (by decide)
    simp [hr, hR]
  have hshape : (decide (radix.length ≤ 2) && isNumeral 10 radix && radix.head? != some '0' &&
      isNumeral 36 digits) = true := by
    simp [hlength, hradix, hhead, isNumeral_mono hhigh h]
  have hvalue := ofDigits?_of_isNumeral hlow hhigh h negative false
  obtain ⟨d, rest, rfl, hd⟩ := exists_cons_of_isNumeral hradix
  rw [List.cons_append] at hsplit ⊢
  simp only [ofToken?, String.toList_ofList, integerToken?, splitSign_signed hd, radixInteger?,
    hsplit, if_pos hshape, hvalue]
  rfl

namespace Denotes

theorem head? (h : Denotes negative text n) : ∃ d, text.head? = some d ∧ isDigit d = true := by
  have hnumeral {cs : List Char} (hcs : isNumeral 10 cs = true) (rest : List Char) :
      ∃ d, (cs ++ rest).head? = some d ∧ isDigit d = true := by
    obtain ⟨d, cs, rfl, hd⟩ := exists_cons_of_isNumeral hcs
    exact ⟨d, rfl, hd⟩
  have hchars {l : Layout} {exponent : Int} (hl : l.IsScaled exponent) (rest : List Char) :
      ∃ d, (l.chars ++ rest).head? = some d ∧ isDigit d = true := by
    obtain ⟨d, cs, hcs, -, hd⟩ := Layout.exists_chars_eq hl.isPlain
    exact ⟨d, by rw [hcs]; rfl, hd⟩
  cases h with
  | integer h => exact h.head?
  | big h =>
    obtain ⟨d, hhead, hd⟩ := h.head?
    exact ⟨d, by rw [List.head?_append, hhead]; rfl, hd⟩
  | radix hradix => exact hnumeral hradix _
  | float hl => simpa using hchars hl []
  | decimal hl => exact hchars hl _
  | quotient hnum => exact hnumeral hnum _
  | ratio hnum => exact hnumeral hnum _

/-- What a text denotes is what it is read as. -/
theorem ofToken?_eq (h : Denotes negative text n) :
    ofToken? (String.ofList (signed negative text)) = some n := by
  cases h with
  | integer h => exact h.ofToken?_eq
  | big h => exact h.ofToken?_big_eq
  | radix hradix hhead hlength hlow hhigh hmark h =>
    exact ofToken?_radix hradix hhead hlength hlow hhigh hmark h
  | float hl hfractional hx =>
    rw [Binary64.isNearest_iff.1 hx]
    exact Binary64.ofToken?_layout hl.isPlain negative hfractional hl.exponent.floatExponent?_eq
  | decimal hl hexponent hscale =>
    rw [signed_append, ofToken?_exact hl.isPlain, hl.parse?_signed negative, if_pos hexponent,
      if_pos hscale]
    rfl
  | quotient hnum hden hzero h =>
    rw [ofToken?_signed_ratio hnum hden, ← signedValue, h, ofRatio?_mul hzero]
  | ratio hnum hden hzero hq h =>
    rw [ofToken?_signed_ratio hnum hden, ← signedValue, ofRatio?_of_eq_mul hzero h, if_neg hq]

end Denotes

/-! ### What is read is derived by the grammar -/

/-- The value of letters and digits in a radix, if there is one. -/
theorem isNumeral_of_ofDigits? {forceBig : Bool} (h : isNumeral 36 digits = true)
    (hread : ofDigits? (String.ofList digits) radix negative forceBig = some n) :
    2 ≤ radix ∧ radix ≤ 36 ∧ isNumeral radix digits = true := by
  obtain ⟨hradix, hread⟩ := Option.ite_none_right_eq_some.1 hread
  obtain ⟨hlow, hhigh⟩ := Bool.and_eq_true_iff.1 hradix
  obtain ⟨m, hm, -⟩ := Option.map_eq_some_iff.1 hread
  have hinteger : integer? radix (signed false digits) = _ := integer?_signed_eq_ite h false
  rw [signed_false, ← String.toList_ofList (l := digits), hm] at hinteger
  exact ⟨of_decide_eq_true hlow, of_decide_eq_true hhigh,
    by_contra fun hnumeral => by simp [hnumeral] at hinteger⟩

/-- What is read with a radix of its own is derived with one. -/
theorem denotes_of_radixInteger? (h : radixInteger? negative cs = some (some n)) :
    Denotes negative cs n := by
  rw [radixInteger?] at h
  split at h
  · cases h
  · rename_i radix digits hsplit
    obtain ⟨hshape, h⟩ := Option.ite_none_right_eq_some.1 h
    simp only [Bool.and_eq_true, decide_eq_true_eq, bne_iff_ne] at hshape
    obtain ⟨⟨⟨hlength, hradix⟩, hhead⟩, hdigits⟩ := hshape
    have h := Option.some.inj h
    obtain ⟨mark, hmark, rfl⟩ := Decimal.eq_of_splitFirst_some hsplit
    obtain ⟨hlow, hhigh, hnumeral⟩ := isNumeral_of_ofDigits? hdigits h
    rw [ofDigits?_of_isNumeral hlow hhigh hnumeral] at h
    cases h
    exact .radix hradix hhead hlength hlow hhigh (by simpa using hmark) hnumeral

/-- What is taken apart into digits and a radix is a spelling of an integer. -/
theorem isInteger_of_plainInteger? (h : plainInteger? cs = some (some (digits, radix))) :
    IsInteger radix digits cs := by
  by_cases hhead : cs.head? = some '0'
  · rcases cs with - | ⟨c, - | ⟨d, rest⟩⟩
    · cases hhead
    · cases hhead
      cases h
      exact .zero
    · cases hhead
      rw [plainInteger?_zero_cons] at h
      split at h
      · rename_i hshape
        obtain ⟨hmark, hdigits⟩ := Bool.and_eq_true_iff.1 hshape
        cases h
        exact .hexadecimal (by simpa using hmark) hdigits
      · split at h
        · cases h
          exact .octal ‹_›
        · split at h <;> cases h
  · rw [plainInteger?_of_head?_ne hhead] at h
    obtain ⟨hdigits, h⟩ := Option.ite_none_right_eq_some.1 h
    cases h
    exact .decimal hdigits hhead

/-- What is read as an integer is derived as one. -/
theorem denotes_of_integerToken? (h : integerToken? cs = some (some n)) :
    Denotes (splitSign cs).1 (splitSign cs).2 n := by
  simp only [integerToken?] at h
  split at h
  · rename_i m hradix
    cases h
    exact denotes_of_radixInteger? hradix
  · rcases hsuffix : splitSuffix 'N' (splitSign cs).2 with ⟨body, forceBig⟩
    rw [hsuffix] at h
    split at h
    · cases h
    · cases h
    · rename_i digits radix hplain
      have hinteger := isInteger_of_plainInteger? hplain
      rw [hinteger.ofDigits?_eq] at h
      cases h
      rw [append_of_splitSuffix hsuffix]
      rcases forceBig with - | -
      · simpa using Denotes.integer hinteger
      · exact .big hinteger

/-- What is read as a ratio is derived as one. -/
theorem denotes_of_ratioToken? (h : ratioToken? cs = some n) :
    Denotes (splitSign cs).1 (splitSign cs).2 n := by
  simp only [ratioToken?] at h
  split at h
  · cases h
  · rename_i num den hsplit
    obtain ⟨hshape, h⟩ := Option.ite_none_right_eq_some.1 h
    obtain ⟨hnum, hden⟩ := Bool.and_eq_true_iff.1 hshape
    obtain ⟨slash, hslash, hcs⟩ := Decimal.eq_of_splitFirst_some hsplit
    rw [hcs, eq_of_beq hslash]
    have hzero : value 10 den ≠ 0 := by
      intro hzero
      rw [hzero, ofRatio?_eq_none_iff.2 Nat.cast_zero] at h
      cases h
    -- the quotient of the two integers decides which of the two numbers it is
    have hzeroQ : ((value 10 den : Nat) : ℚ) ≠ 0 := Nat.cast_ne_zero.2 hzero
    have hq := (div_mul_cancel₀ (signedValue 10 (splitSign cs).1 num : ℚ) hzeroQ).symm
    generalize (signedValue 10 (splitSign cs).1 num : ℚ) / value 10 den = q at hq
    rw [← signedValue, ofRatio?_of_eq_mul hzero hq] at h
    split at h
    · rename_i hone
      cases h
      refine .quotient hnum hden hzero ?_
      have hint : (q.num : ℚ) = q := Rat.coe_int_num_of_den_eq_one hone
      rw [← hint] at hq
      exact_mod_cast hq
    · rename_i hone
      cases h
      exact .ratio hnum hden hzero hone hq

/-! ### Floating-point numbers and decimals -/

/-- Decimal digits are no floating-point number, since they are tried as an integer first. -/
theorem integerToken?_ne_none (h : isNumeral 10 (splitSign cs).2 = true) :
    integerToken? cs ≠ none := by
  have hN : 'N' ∉ (splitSign cs).2 := notMem_of_isNumeral h (by decide)
  simp only [integerToken?, splitSuffix_of_notMem hN]
  split
  · exact Option.some_ne_none _
  · split
    · exact absurd ‹_› (plainInteger?_ne_none h)
    · exact Option.some_ne_none _
    · exact Option.some_ne_none _

/-- What a mantissa and an exponent have been split off from is a layout of them. -/
theorem exists_layout_of_splitFirst {mantissa whole : List Char}
    {exponentText fraction : Option (List Char)}
    (hmark : Decimal.splitFirst Decimal.isExponentMark cs = (mantissa, exponentText))
    (hpoint : Decimal.splitFirst (· == '.') mantissa = (whole, fraction)) :
    ∃ exponent : Option (Char × List Char), exponent.map Prod.snd = exponentText ∧
      (∀ mark cs, exponent = some (mark, cs) → Decimal.isExponentMark mark = true) ∧
      (⟨whole, fraction, exponent⟩ : Layout).chars = cs := by
  have hmantissa (exponent : Option (Char × List Char)) :
      (⟨whole, fraction, exponent⟩ : Layout).mantissa = mantissa := by
    rcases fraction with - | fraction
    · exact (Decimal.eq_of_splitFirst_none hpoint).symm
    · obtain ⟨point, h, rfl⟩ := Decimal.eq_of_splitFirst_some hpoint
      rw [eq_of_beq h]
      rfl
  rcases exponentText with - | exponentText
  · refine ⟨none, rfl, nofun, ?_⟩
    rw [Layout.chars, hmantissa]
    exact (Decimal.eq_of_splitFirst_none hmark).symm
  · obtain ⟨mark, h, rfl⟩ := Decimal.eq_of_splitFirst_some hmark
    refine ⟨some (mark, exponentText), rfl, ?_, ?_⟩
    · rintro _ _ ⟨⟩
      exact h
    · rw [Layout.chars, hmantissa]

/-- A plus sign before a layout makes no difference to a decimal. -/
theorem parse?_of_isSigned {l : Layout} {exponent : Int} (hl : l.IsScaled exponent)
    (h : IsSigned negative l.chars cs) :
    Decimal.parse? (String.ofList cs) =
      Decimal.parse? (String.ofList (signed negative l.chars)) := by
  obtain ⟨d, rest, hchars, -, hd⟩ := Layout.exists_chars_eq hl.isPlain
  rw [hchars] at h ⊢
  cases h with
  | unsigned => rfl
  | plus => exact Decimal.parse?_plus hd
  | minus => rfl

/-- What is no integer, and read as a floating-point number or a decimal, is derived as such. -/
theorem denotes_of_floatToken? (hinteger : integerToken? cs = none) (h : floatToken? cs = some n) :
    Denotes (splitSign cs).1 (splitSign cs).2 n := by
  rcases hsuffix : splitSuffix 'M' cs with ⟨body, exact⟩
  rcases hmark : Decimal.splitFirst Decimal.isExponentMark (splitSign body).2 with
    ⟨mantissa, exponentText⟩
  rcases hpoint : Decimal.splitFirst (· == '.') mantissa with ⟨whole, fraction⟩
  simp only [floatToken?, hsuffix, hmark, hpoint] at h
  obtain ⟨hshape, hbind⟩ := Option.ite_none_right_eq_some.1 h
  obtain ⟨hwhole, hfraction⟩ := Bool.and_eq_true_iff.1 hshape
  obtain ⟨exponent, hexponent, hvalue⟩ := Option.bind_eq_some_iff.1 hbind
  obtain ⟨marked, rfl, hmarked, hchars⟩ := exists_layout_of_splitFirst hmark hpoint
  -- a layout of digits with its exponent, from which the sign and the suffix have been taken
  have hl : (⟨whole, fraction, marked⟩ : Layout).IsScaled exponent :=
    ⟨hwhole, hfraction, Layout.isExponent_of_floatExponent? hmarked hexponent⟩
  have hbody : body ≠ [] := by
    rintro rfl
    obtain ⟨d, rest, hcons, -, -⟩ := Layout.exists_chars_eq hl.isPlain
    rw [hchars] at hcons
    cases hcons
  have hsign : splitSign cs =
      ((splitSign body).1, (splitSign body).2 ++ if exact then ['M'] else []) := by
    conv_lhs => rw [append_of_splitSuffix hsuffix]
    exact splitSign_append hbody _
  have hsigned := isSigned_splitSign body
  rw [hsign]
  rw [← hchars] at hsigned hsign ⊢
  rcases exact with - | -
  · cases hvalue
    simp only [Bool.false_eq_true, if_false, List.append_nil] at hsign ⊢
    refine .float hl (by_contra fun hfractional => ?_) (Binary64.isNearest_ofDecimal _ _ _)
    -- without a point and an exponent it is a run of digits
    have hrun : (⟨whole, fraction, marked⟩ : Layout).chars = whole := by
      rcases fraction with - | fraction <;> rcases marked with - | ⟨mark, rest⟩
      · rfl
      all_goals exact absurd rfl hfractional
    refine absurd hinteger (integerToken?_ne_none ?_)
    rw [hsign, hrun]
    exact hwhole
  · rw [if_pos rfl, parse?_of_isSigned hl hsigned, hl.parse?_signed] at hvalue
    obtain ⟨d, hd, rfl⟩ := Option.map_eq_some_iff.1 hvalue
    obtain ⟨hfits, hd⟩ := Option.ite_none_right_eq_some.1 hd
    obtain ⟨hscale, hd⟩ := Option.ite_none_right_eq_some.1 hd
    cases hd
    exact .decimal hl hfits hscale

/-- A token denotes a number just if that number is derived for what follows its sign. Zero followed
by decimal digits that are not all octal is refused, also with the suffix of a big integer. -/
theorem ofToken?_eq_some_iff (token : String) :
    (∀ n, ofToken? token = some n ↔
      ∃ negative text, IsSigned negative text token.toList ∧ Denotes negative text n) ∧
    ∀ negative digits suffix, isNumeral 10 digits = true → isNumeral 8 digits = false →
      suffix ∈ [[], ['N']] → IsSigned negative ('0' :: digits ++ suffix) token.toList →
        ofToken? token = none := by
  constructor
  · intro n
    constructor
    · intro h
      refine ⟨_, _, isSigned_splitSign token.toList, ?_⟩
      -- a token is tried as an integer, as a fractional number and as a ratio, in this order
      simp only [ofToken?] at h
      rcases hinteger : integerToken? token.toList with - | m
      · rw [hinteger] at h
        rcases hfloat : floatToken? token.toList with - | m
        · rw [hfloat] at h
          exact denotes_of_ratioToken? h
        · rw [hfloat] at h
          cases h
          exact denotes_of_floatToken? hinteger hfloat
      · rw [hinteger] at h
        cases h
        exact denotes_of_integerToken? hinteger
    · rintro ⟨negative, text, hsigned, h⟩
      obtain ⟨d, hhead, hd⟩ := h.head?
      have hread := ofToken?_of_isSigned hsigned hd hhead
      rwa [String.ofList_toList, h.ofToken?_eq] at hread
  · intro negative digits suffix hdecimal hoctal hsuffix hsigned
    have hread := ofToken?_of_isSigned hsigned (d := '0') rfl rfl
    rw [String.ofList_toList] at hread
    rw [hread]
    exact ofToken?_of_not_octal hdecimal hoctal hsuffix

end Number

end FormTree
