import FormTree.Proofs.Form.Faithful
import FormTree.Proofs.Number.Literal
import FormTree.Proofs.Number.Ratio
import FormTree.Proofs.Number.Spelling

/-!
# Reading the texts of numbers back

The spellings of integers, ratios and decimals are read as the numbers they are spellings of; that
of a decimal only if its exponent has 64 bits.
-/

namespace FormTree

open Numeral Text

namespace Number

variable {n : Nat} {negative : Bool} {cs : List Char}

/-! ### Integers -/

/-- Without the mark of a radix there is no integer with one. -/
theorem radixInteger?_eq_none (hr : 'r' ∉ cs) (hR : 'R' ∉ cs) :
    radixInteger? negative cs = none := by
  have hall : cs.all (fun c => !(c == 'r' || c == 'R')) = true := by
    rw [List.all_eq_true]
    intro c hc
    have hr : c ≠ 'r' := fun h => hr (h ▸ hc)
    have hR : c ≠ 'R' := fun h => hR (h ▸ hc)
    simp [hr, hR]
  rw [radixInteger?, Decimal.splitFirst_of_all hall]

/-- What an integer token with a sign denotes. -/
theorem integerToken?_signed {d : Char} (hhead : cs.head? = some d) (hd : isDigit d = true)
    (hr : 'r' ∉ cs) (hR : 'R' ∉ cs) {body : List Char} {forceBig : Bool}
    (hsuffix : splitSuffix 'N' cs = (body, forceBig)) :
    integerToken? (signed negative cs) =
      match plainInteger? body with
      | none => none
      | some none => some none
      | some (some (digits, radix)) =>
        some (ofDigits? (String.ofList digits) radix negative forceBig) := by
  rcases cs with - | ⟨c, cs⟩
  · cases hhead
  · cases hhead
    rcases hplain : plainInteger? body with - | - | ⟨digits, radix⟩ <;>
      simp only [integerToken?, splitSign_signed hd, radixInteger?_eq_none hr hR, hsuffix, hplain]

/-- The digits of a number are a decimal integer: they begin with zero for zero only. -/
theorem plainInteger?_toDigits (n : Nat) :
    plainInteger? (Nat.toDigits 10 n) = some (some (Nat.toDigits 10 n, 10)) := by
  rcases Nat.eq_zero_or_pos n with rfl | hn
  · decide
  · have hhead := head?_toDigits hn
    have hnumeral := isNumeral_of_all (all_toDigits n) Nat.toDigits_ne_nil
    rw [plainInteger?.eq_def]
    split
    · rename_i heq
      rw [heq] at hhead
      exact absurd rfl hhead
    · rename_i heq
      rw [heq] at hhead
      exact absurd rfl hhead
    · rw [hnumeral]
      rfl

/-- A numeral is read in its radix. -/
theorem ofDigits?_of_isNumeral {radix : Nat} {ds : List Char} (hlow : 2 ≤ radix)
    (hhigh : radix ≤ 36) (h : isNumeral radix ds = true) (negative forceBig : Bool) :
    ofDigits? (String.ofList ds) radix negative forceBig =
      some (if forceBig then .big (if negative then -(value radix ds : Int) else value radix ds)
        else ofInt (if negative then -(value radix ds : Int) else value radix ds)) := by
  have hinteger := integer?_signed h false
  simp only [signed_false, Bool.false_eq_true, if_false] at hinteger
  rw [ofDigits?, if_pos (by simp [hlow, hhigh]), String.toList_ofList, hinteger]
  rfl

theorem isNumeral_toDigits (n : Nat) : isNumeral 10 (Nat.toDigits 10 n) = true :=
  isNumeral_of_all (all_toDigits n) Nat.toDigits_ne_nil

theorem head?_toDigits_isDigit (n : Nat) :
    ∃ d, (Nat.toDigits 10 n).head? = some d ∧ isDigit d = true := by
  have hall := all_toDigits n
  rcases hdigits : Nat.toDigits 10 n with - | ⟨d, cs⟩
  · exact absurd hdigits Nat.toDigits_ne_nil
  · rw [hdigits] at hall
    exact ⟨d, rfl, (Bool.and_eq_true_iff.1 hall).1⟩

theorem notMem_toDigits {c : Char} (hc : isDigit c = false) : c ∉ Nat.toDigits 10 n :=
  notMem_of_isNumeral (isNumeral_toDigits n) hc

/-- An integer is its magnitude with its sign. -/
theorem natAbs_signed (n : Int) :
    (if decide (n < 0) then -(n.natAbs : Int) else n.natAbs) = n := by
  by_cases hn : n < 0
  · rw [if_pos (decide_eq_true hn)]
    omega
  · rw [if_neg (by simpa using hn)]
    omega

/-- The text of an integer is a token of it. -/
theorem integerToken?_toString (n : Int) :
    integerToken? (toString n).toList = some (some (ofInt n)) := by
  obtain ⟨d, hhead, hd⟩ := head?_toDigits_isDigit n.natAbs
  have hsuffix := splitSuffix_of_notMem (notMem_toDigits (n := n.natAbs) (c := 'N') (by decide))
  rw [toList_toString, integerToken?_signed hhead hd (notMem_toDigits (by decide))
    (notMem_toDigits (by decide)) hsuffix, plainInteger?_toDigits]
  dsimp only
  rw [ofDigits?_of_isNumeral (by decide) (by decide) (isNumeral_toDigits _), value_toDigits,
    if_neg (by decide), natAbs_signed]

/-- With the suffix of a big integer it is a token of that. -/
theorem integerToken?_big (n : Int) :
    integerToken? (toString n ++ "N").toList = some (some (.big n)) := by
  obtain ⟨d, hhead, hd⟩ := head?_toDigits_isDigit n.natAbs
  have hhead : (Nat.toDigits 10 n.natAbs ++ ['N']).head? = some d := by
    rw [List.head?_append, hhead]
    rfl
  have hmem {c : Char} (hc : isDigit c = false) (hN : c ≠ 'N') :
      c ∉ Nat.toDigits 10 n.natAbs ++ ['N'] := by
    simp [notMem_toDigits hc, hN]
  have hN : "N".toList = ['N'] := by decide
  rw [String.toList_append, toList_toString, hN, ← signed_append,
    integerToken?_signed hhead hd (hmem (by decide) (by decide)) (hmem (by decide) (by decide))
      (splitSuffix_append 'N' _), plainInteger?_toDigits]
  dsimp only
  rw [ofDigits?_of_isNumeral (by decide) (by decide) (isNumeral_toDigits _), value_toDigits,
    if_pos rfl, natAbs_signed]

/-- The spelling of an integer of fixed width is read as it. -/
theorem ofToken?_int (n : Int64) : ofToken? (Number.int n).spelling = some (.int n) := by
  rw [ofToken?, spelling, integerToken?_toString, ofInt_toInt]

/-- The spelling of a big integer is read as it, also where 64 bits would do. -/
theorem ofToken?_big (n : Int) : ofToken? (Number.big n).spelling = some (.big n) := by
  rw [ofToken?, spelling, integerToken?_big]

/-! ### Tokens that are no integers -/

/-- A token that has not the shape of an integer is read as another number. -/
theorem ofToken?_of_plainInteger?_eq_none {d : Char} (hhead : cs.head? = some d)
    (hd : isDigit d = true) (hr : 'r' ∉ cs) (hR : 'R' ∉ cs) (hN : 'N' ∉ cs)
    (hshape : plainInteger? cs = none) :
    ofToken? (String.ofList (signed negative cs)) =
      (floatToken? (signed negative cs) <|> ratioToken? (signed negative cs)) := by
  rw [ofToken?, String.toList_ofList,
    integerToken?_signed hhead hd hr hR (splitSuffix_of_notMem hN), hshape]

/-! ### Ratios -/

/-- What is not all digits is no floating-point number without a point or an exponent. -/
theorem floatToken?_eq_none {d : Char} (hhead : cs.head? = some d) (hd : isDigit d = true)
    (hM : 'M' ∉ cs) (hmark : ∀ c ∈ cs, Decimal.isExponentMark c = false) (hpoint : '.' ∉ cs)
    {c : Char} (hmem : c ∈ cs) (hc : isDigit c = false) :
    floatToken? (signed negative cs) = none := by
  rcases cs with - | ⟨first, cs⟩
  · cases hhead
  · cases hhead
    have hsuffix : splitSuffix 'M' (signed negative (d :: cs)) =
        (signed negative (d :: cs), false) := by
      refine splitSuffix_of_notMem fun h => ?_
      rcases negative with - | -
      · exact hM h
      · rcases List.mem_cons.1 h with h | h
        · cases h
        · exact hM h
    have hexponent : Decimal.splitFirst Decimal.isExponentMark (d :: cs) = (d :: cs, none) :=
      Decimal.splitFirst_of_all (List.all_eq_true.2 fun c hc => by rw [hmark c hc]; rfl)
    have hmantissa : Decimal.splitFirst (· == '.') (d :: cs) = (d :: cs, none) := by
      refine Decimal.splitFirst_of_all (List.all_eq_true.2 fun c hc => ?_)
      have hne : c ≠ '.' := fun h => hpoint (h ▸ hc)
      simp [hne]
    -- without a point or an exponent all of the text would have to be digits
    have hnumeral : isNumeral 10 (d :: cs) = false := by
      rw [isNumeral_ten, Bool.and_eq_false_iff]
      exact .inr (List.all_eq_false.2 ⟨c, hmem, by simp [hc]⟩)
    rw [floatToken?, hsuffix]
    dsimp only
    rw [splitSign_signed hd]
    dsimp only
    rw [hexponent]
    dsimp only
    rw [hmantissa]
    dsimp only
    rw [hnumeral]
    rfl

/-- Two runs of digits with a slash between them are no other number than a ratio. -/
theorem ofToken?_signed_ratio {num den : List Char} (hnum : isNumeral 10 num = true)
    (hden : isNumeral 10 den = true) :
    ofToken? (String.ofList (signed negative (num ++ '/' :: den))) =
      ofRatio? (if negative then -(value 10 num : Int) else value 10 num) (value 10 den) := by
  obtain ⟨d, hhead, hd⟩ : ∃ d, (num ++ '/' :: den).head? = some d ∧ isDigit d = true := by
    obtain ⟨d, rest, rfl, hd⟩ := exists_cons_of_isNumeral hnum
    exact ⟨d, rfl, hd⟩
  have hmem {c : Char} (hc : isDigit c = false) (hslash : c ≠ '/') : c ∉ num ++ '/' :: den := by
    simp [notMem_of_isNumeral hnum hc, notMem_of_isNumeral hden hc, hslash]
  have hslash : '/' ∈ num ++ '/' :: den := by simp
  have hmark : ∀ c ∈ num ++ '/' :: den, Decimal.isExponentMark c = false := by
    intro c hc
    rw [Bool.eq_false_iff]
    intro hmark
    rcases Bool.or_eq_true_iff.1 hmark with he | he <;> rw [eq_of_beq he] at hc
    · exact hmem (by decide) (by decide) hc
    · exact hmem (by decide) (by decide) hc
  -- the slash keeps the text from being an integer or a decimal, and splits it
  have hsplit : Decimal.splitFirst (· == '/') (num ++ '/' :: den) = (num, some den) := by
    refine Decimal.splitFirst_append (List.all_eq_true.2 fun c hc => ?_) rfl
    have hne : c ≠ '/' := ne_of_isDigit (isDigit_of_mem hnum hc) (by decide)
    simp [hne]
  have hsign : splitSign (signed negative (num ++ '/' :: den)) = (negative, num ++ '/' :: den) := by
    obtain ⟨d, rest, rfl, hd⟩ := exists_cons_of_isNumeral hnum
    exact splitSign_signed hd
  have hratio : ratioToken? (signed negative (num ++ '/' :: den)) =
      ofRatio? (if negative then -(value 10 num : Int) else value 10 num) (value 10 den) := by
    rw [ratioToken?, hsign]
    dsimp only
    rw [hsplit]
    dsimp only
    rw [hnum, hden, if_pos (by decide)]
  rw [ofToken?_of_plainInteger?_eq_none hhead hd (hmem (by decide) (by decide))
    (hmem (by decide) (by decide)) (hmem (by decide) (by decide))
    (plainInteger?_eq_none hslash (by decide) (hmem (by decide) (by decide))
      (hmem (by decide) (by decide))),
    floatToken?_eq_none hhead hd (hmem (by decide) (by decide)) hmark
      (hmem (by decide) (by decide)) hslash (by decide), hratio]
  rfl

/-- The spelling of a fraction is read as it, if it is no integer. -/
theorem ofToken?_ratio {q : Rat} (h : q.den ≠ 1) :
    ofToken? (Number.ratio q).spelling = some (.ratio q) := by
  have htext : (Number.ratio q).spelling = String.ofList (signed (decide (q.num < 0))
      (Nat.toDigits 10 q.num.natAbs ++ '/' :: Nat.toDigits 10 q.den)) := by
    have hslash : "/".toList = ['/'] := by decide
    rw [← String.toList_inj, String.toList_ofList, signed_append, ← toList_toString, spelling,
      String.toList_append, String.toList_append, hslash, Nat.toString_eq_repr, Nat.toList_repr]
    simp
  rw [htext, ofToken?_signed_ratio (isNumeral_toDigits _) (isNumeral_toDigits _), value_toDigits,
    value_toDigits, natAbs_signed, ofRatio?_of_ne_zero (Int.natCast_ne_zero.2 q.den_nz),
    Rat.num_divInt_den, ofRat, if_neg h]

/-! ### Exponents -/

theorem floatExponent?_toString (n : Int) : floatExponent? (some (toString n).toList) = some n := by
  have hsign : splitSign (toString n).toList = (decide (n < 0), Nat.toDigits 10 n.natAbs) := by
    obtain ⟨d, hhead, hd⟩ := head?_toDigits_isDigit n.natAbs
    rw [toList_toString]
    rcases hdigits : Nat.toDigits 10 n.natAbs with - | ⟨c, cs⟩
    · exact absurd hdigits Nat.toDigits_ne_nil
    · rw [hdigits] at hhead
      cases hhead
      exact splitSign_signed hd
  rw [floatExponent?, hsign]
  dsimp only
  rw [isNumeral_toDigits, if_pos rfl, value_toDigits, natAbs_signed]

/-- After a plus sign an integer is an exponent unless it has a sign of its own. -/
theorem floatExponent?_plus (n : Int) :
    floatExponent? (some ('+' :: (toString n).toList)) = if 0 ≤ n then some n else none := by
  have hsign : splitSign ('+' :: (toString n).toList) = (false, (toString n).toList) := rfl
  rw [floatExponent?, hsign, toList_toString]
  dsimp only
  by_cases hn : 0 ≤ n
  · have habs : (n.natAbs : Int) = n := by omega
    rw [decide_eq_false (by omega), signed_false, isNumeral_toDigits, if_pos rfl, value_toDigits,
      if_pos hn, if_neg (by decide), habs]
  · have hsigned : ¬ isNumeral 10 (signed true (Nat.toDigits 10 n.natAbs)) = true := nofun
    rw [decide_eq_true (by omega), if_neg hn, if_neg hsigned]

/-- The exponent of a decimal has 64 bits. -/
theorem exponent?_eq_filter (e : Option (List Char)) :
    Decimal.exponent? e = (floatExponent? e).filter fitsInt64 := by
  rcases e with - | cs
  · rfl
  · rw [Decimal.exponent?, Numeral.exponent?.eq_def, floatExponent?]
    split
    rename_i negative digits heq
    have hsign : splitSign cs = (negative, digits) := heq
    rw [hsign]
    dsimp only
    split
    · rfl
    · rfl

/-- The exponent of a decimal is read after a plus sign just if it has 64 bits. -/
theorem exponent?_plus {n : Int} (hn : 0 ≤ n) :
    Decimal.exponent? (some ('+' :: (toString n).toList)) =
      if fitsInt64 n then some n else none := by
  rw [exponent?_eq_filter, floatExponent?_plus, if_pos hn, Option.filter_some]

theorem all_isInExponent_toString (n : Int) :
    (toString n).toList.all Layout.isInExponent = true := by
  have hall : (Nat.toDigits 10 n.natAbs).all Layout.isInExponent = true := by
    rw [List.all_eq_true]
    intro c hc
    simp [Layout.isInExponent, List.all_eq_true.1 (all_toDigits n.natAbs) c hc]
  rw [toList_toString]
  cases decide (n < 0)
  · exact hall
  · exact Bool.and_eq_true_iff.2 ⟨rfl, hall⟩

end Number

/-! ### Decimals -/

namespace Decimal

/-- The digits of a decimal. -/
abbrev digits (d : Decimal) : List Char := Nat.toDigits 10 d.unscaled.natAbs

/-- Whether a layout is the spelling of a decimal and its parts denote what they should: the
exponent is read just if it does not overflow. -/
structure IsLaidOut (d : Decimal) (l : Layout) : Prop where
  plain : l.IsPlain
  spelling_eq : d.spelling.toList = signed (decide (d.unscaled < 0)) l.chars
  value_eq : value 10 l.digits = d.unscaled.natAbs
  exponent_iff : exponent? (l.exponent.map Prod.snd) =
    some ((l.fraction.getD []).length - d.scale) ↔
    d.overflows = false

section

variable {d : Decimal}

/-- The spelling of a decimal is its sign and what comes after it. -/
theorem toList_spelling {cs : List Char} (h : d.magnitudeParts.flatMap String.toList = cs) :
    d.spelling.toList = signed (decide (d.unscaled < 0)) cs := by
  rw [spelling, String.toList_join, List.flatMap_append, h, signParts]
  by_cases hneg : d.unscaled < 0
  · rw [if_pos hneg, decide_eq_true hneg]
    rfl
  · rw [if_neg hneg, decide_eq_false hneg]
    rfl

theorem overflows_eq_false_of_nonneg (h : 0 ≤ d.scale) : d.overflows = false := by
  rw [overflows, decide_eq_false (Int.not_lt.2 h), Bool.false_and]

/-- Where the spelling has no exponent, as many places as the scale says have to be laid out. -/
theorem exponent?_none_iff {l : Layout} (h : 0 ≤ d.scale)
    (hlength : ((l.fraction.getD []).length : Int) = d.scale) :
    exponent? none = some (((l.fraction.getD []).length : Int) - d.scale) ↔
      d.overflows = false := by
  rw [hlength, Int.sub_self]
  exact iff_of_true rfl (overflows_eq_false_of_nonneg h)

/-- Without a scale a decimal is spelled as its digits. -/
theorem isLaidOut_whole (h : d.scale = 0) : d.IsLaidOut ⟨d.digits, none, none⟩ where
  plain := ⟨Nat.toDigits_ne_nil, all_toDigits _, rfl, nofun⟩
  spelling_eq := toList_spelling (by simp [magnitudeParts, h, Layout.chars, Layout.mantissa])
  value_eq := by simp [Layout.digits, value_toDigits]
  exponent_iff := exponent?_none_iff (l := ⟨d.digits, none, none⟩) (Int.le_of_eq h.symm) h.symm

/-- A scale below the number of digits puts the point among them. -/
theorem isLaidOut_pointed (h : 0 < d.scale) (hplaces : d.scale.toNat < d.digits.length) :
    d.IsLaidOut (.pointed (d.digits.length - d.scale.toNat) d.digits) where
  plain := Layout.isPlain_pointed (all_toDigits _) Nat.toDigits_ne_nil (by omega)
  spelling_eq := by
    have hzero : d.scale ≠ 0 := by omega
    have hneg : ¬ d.scale < 0 := by omega
    refine toList_spelling ?_
    simp [magnitudeParts, hzero, hneg, hplaces, Layout.pointed, Layout.positional, Layout.chars,
      Layout.mantissa]
  value_eq := by rw [Layout.digits_pointed, value_toDigits]
  exponent_iff := by
    refine exponent?_none_iff (Int.le_of_lt h) ?_
    simp only [Layout.pointed, Layout.positional, Option.getD_some, List.length_drop]
    omega

/-- A scale beyond the number of digits asks for zeros before them. -/
theorem isLaidOut_padded (h : 0 < d.scale) (hplaces : ¬ d.scale.toNat < d.digits.length) :
    d.IsLaidOut (.padded (d.scale.toNat - d.digits.length) d.digits) where
  plain := Layout.isPlain_padded (all_toDigits _)
  spelling_eq := by
    have hzero : d.scale ≠ 0 := by omega
    have hneg : ¬ d.scale < 0 := by omega
    -- the zeros are texts of their own
    have hzeros (n : Nat) :
        (List.replicate n "0").flatMap String.toList = List.replicate n '0' := by
      rw [List.flatMap_replicate]
      exact List.flatten_replicate_singleton
    refine toList_spelling ?_
    simp [magnitudeParts, hzero, hneg, hplaces, hzeros, Layout.padded, Layout.positional,
      Layout.chars, Layout.mantissa]
  value_eq := by rw [Layout.value_digits_padded (all_toDigits _), value_toDigits]
  exponent_iff := by
    refine exponent?_none_iff (Int.le_of_lt h) ?_
    simp only [Layout.padded, Layout.positional, Option.getD_some, List.length_append,
      List.length_replicate]
    omega

/-- A decimal with a negative scale has no negative exponent. -/
theorem textExponent_nonneg (h : d.scale < 0) : 0 ≤ d.textExponent := by
  have hlength : 0 < d.digits.length := List.length_pos_iff.2 Nat.toDigits_ne_nil
  rw [textExponent]
  omega

/-- A decimal with a negative scale is spelled with an exponent, which is read back just if it does
not overflow. -/
theorem isLaidOut_scientific (h : d.scale < 0) :
    d.IsLaidOut (.scientific d.digits 'E' ('+' :: (toString d.textExponent).toList)) where
  plain := Layout.isPlain_scientific (all_toDigits _) Nat.toDigits_ne_nil rfl
    (Bool.and_eq_true_iff.2 ⟨rfl, Number.all_isInExponent_toString _⟩)
  spelling_eq := by
    have hzero : d.scale ≠ 0 := by omega
    refine toList_spelling ?_
    simp only [magnitudeParts, if_neg hzero, if_pos h]
    rcases hdigits : Nat.toDigits 10 d.unscaled.natAbs with - | ⟨c, - | ⟨c', rest⟩⟩
    · exact absurd hdigits Nat.toDigits_ne_nil
    · simp [digits, hdigits, Layout.chars_scientific_singleton]
    · simp [digits, hdigits, Layout.chars_scientific_cons]
  value_eq := by rw [Layout.digits_scientific, value_toDigits]
  exponent_iff := by
    have hoverflows : d.overflows = false ↔ fitsInt64 d.textExponent = true := by
      rw [overflows, decide_eq_true h, Bool.true_and, Bool.not_eq_false']
    have hexponent : exponent? (some ('+' :: (toString d.textExponent).toList)) =
        some d.textExponent ↔ fitsInt64 d.textExponent = true := by
      rw [Number.exponent?_plus (textExponent_nonneg h), Option.ite_none_right_eq_some,
        and_iff_left rfl]
    rw [Layout.length_fraction_scientific Nat.toDigits_ne_nil, hoverflows]
    exact hexponent

end

/-- The spelling of a decimal is a layout of its digits. -/
theorem exists_layout (d : Decimal) : ∃ l, d.IsLaidOut l := by
  -- a negative scale is written as an exponent, a positive one by the place of the point
  rcases Int.lt_trichotomy d.scale 0 with hneg | hzero | hpos
  · exact ⟨_, isLaidOut_scientific hneg⟩
  · exact ⟨_, isLaidOut_whole hzero⟩
  · by_cases hplaces : d.scale.toNat < d.digits.length
    · exact ⟨_, isLaidOut_pointed hpos hplaces⟩
    · exact ⟨_, isLaidOut_padded hpos hplaces⟩

/-- The spelling of a decimal is read as that decimal just if its exponent does not overflow. -/
theorem parse?_spelling_iff {d : Decimal} (h : fitsInt64 d.scale = true) :
    parse? d.spelling = some d ↔ d.overflows = false := by
  obtain ⟨l, hl, htext, hvalue, hexponent⟩ := d.exists_layout
  rw [← hexponent, ← String.ofList_toList (s := d.spelling), htext, Layout.parse?_signed hl, hvalue,
    Number.natAbs_signed]
  rcases exponent? (l.exponent.map Prod.snd) with - | e
  · exact iff_of_false nofun nofun
  · rw [Option.bind_some, Option.some_inj]
    dsimp only
    constructor
    · intro hd
      obtain ⟨-, hd⟩ := Option.ite_none_right_eq_some.1 hd
      have hscale : ((l.fraction.getD []).length : Int) - e = d.scale :=
        congrArg scale (Option.some.inj hd)
      omega
    · rintro rfl
      have hscale : ((l.fraction.getD []).length : Int) -
          ((l.fraction.getD []).length - d.scale) = d.scale := by omega
      rw [hscale, if_pos h]

end Decimal

namespace Number

variable {negative : Bool}

/-- A layout has nothing in it that other tokens are told by. -/
theorem ofToken?_layout {l : Layout} (h : l.IsPlain) (hshape : plainInteger? l.chars = none) :
    ofToken? (String.ofList (signed negative l.chars)) =
      (floatToken? (signed negative l.chars) <|> ratioToken? (signed negative l.chars)) := by
  obtain ⟨d, cs, hcs, -, hd⟩ := Layout.exists_chars_eq h
  have hmem {c : Char} (hc : Layout.isInLayout c = false) : c ∉ l.chars :=
    Layout.notMem_signed h false hc
  refine ofToken?_of_plainInteger?_eq_none ?_ hd (hmem (by decide)) (hmem (by decide))
    (hmem (by decide)) hshape
  rw [hcs]
  rfl

/-- A layout with the suffix of a decimal is one, or no number. -/
theorem ofToken?_exact {l : Layout} (h : l.IsPlain) :
    ofToken? (String.ofList (signed negative l.chars ++ ['M'])) =
      (Decimal.parse? (String.ofList (signed negative l.chars))).map .decimal := by
  obtain ⟨d, cs, hcs, -, hd⟩ := Layout.exists_chars_eq h
  have hmem {c : Char} (hc : Layout.isInLayout c = false) (hM : c ≠ 'M') :
      c ∉ l.chars ++ ['M'] := by
    have hchars : c ∉ l.chars := Layout.notMem_signed h false hc
    simp [hchars, hM]
  have hM : 'M' ∈ l.chars ++ ['M'] := by simp
  have hfloat : floatToken? (signed negative l.chars ++ ['M']) =
      (Decimal.parse? (String.ofList (signed negative l.chars))).map .decimal := by
    rw [floatToken?_of_splitSuffix h negative (splitSuffix_append 'M' _), Layout.parse?_signed h,
      exponent?_eq_filter]
    rcases floatExponent? (l.exponent.map Prod.snd) with - | e <;> rfl
  -- the suffix keeps the text from being an integer, and no slash splits it
  have hratio : ratioToken? (signed negative (l.chars ++ ['M'])) = none := by
    have hsplit : Decimal.splitFirst (· == '/') (l.chars ++ ['M']) = (l.chars ++ ['M'], none) := by
      refine Decimal.splitFirst_of_all (List.all_eq_true.2 fun c hc => ?_)
      have hne : c ≠ '/' := fun h => hmem (by decide) (by decide) (h ▸ hc)
      simp [hne]
    have hsign : splitSign (signed negative (l.chars ++ ['M'])) = (negative, l.chars ++ ['M']) := by
      rw [hcs, List.cons_append]
      exact splitSign_signed hd
    rw [ratioToken?, hsign]
    dsimp only
    rw [hsplit]
  rw [← signed_append, ofToken?_of_plainInteger?_eq_none (by rw [hcs]; rfl) hd
    (hmem (by decide) (by decide)) (hmem (by decide) (by decide)) (hmem (by decide) (by decide))
    (plainInteger?_eq_none hM (by decide) (hmem (by decide) (by decide))
      (hmem (by decide) (by decide))), hratio, signed_append, hfloat]
  rcases Decimal.parse? (String.ofList (signed negative l.chars)) with - | d <;> rfl

/-- A decimal is read back from its spelling just if its exponent does not overflow. -/
theorem ofToken?_decimal_iff {d : Decimal} (h : fitsInt64 d.scale = true) :
    ofToken? (Number.decimal d).spelling = some (.decimal d) ↔ d.overflows = false := by
  obtain ⟨l, hl, htext, -⟩ := d.exists_layout
  have hM : "M".toList = ['M'] := by decide
  have hspelling : (Number.decimal d).spelling =
      String.ofList (signed (decide (d.unscaled < 0)) l.chars ++ ['M']) := by
    rw [← String.toList_inj, String.toList_ofList, spelling, String.toList_append, htext, hM]
  rw [← Decimal.parse?_spelling_iff h, hspelling, ofToken?_exact hl, ← htext, String.ofList_toList,
    Option.map_eq_some_iff]
  simp

end Number

end FormTree
