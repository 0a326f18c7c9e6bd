import FormTree.Number.Literal
import FormTree.Proofs.Number.Digits
import Mathlib.Data.List.TakeWhile

/-!
# Reading laid out numbers

Digits with an optional point and an optional exponent are read as a floating-point number, or, with
the suffix for it, as a decimal.
-/

namespace FormTree

open Numeral Text

namespace Decimal

variable {isSeparator : Char → Bool} {cs ds : List Char} {c : Char}

/-- Without a separator the text is the part before it. -/
theorem splitFirst_of_all (h : cs.all (!isSeparator ·) = true) :
    splitFirst isSeparator cs = (cs, none) := by
  rw [splitFirst, List.span_eq_takeWhile_dropWhile]
  rw [List.all_eq_true] at h
  rw [List.takeWhile_eq_self_iff.2 h, List.dropWhile_eq_nil_iff.2 h]

/-- The first separator splits the text. -/
theorem splitFirst_append (h : cs.all (!isSeparator ·) = true) (hc : isSeparator c = true) :
    splitFirst isSeparator (cs ++ c :: ds) = (cs, some ds) := by
  have hhead : (!isSeparator c) = false := by rw [hc]; rfl
  rw [List.all_eq_true] at h
  rw [splitFirst, List.span_eq_takeWhile_dropWhile, List.takeWhile_append_of_pos h,
    List.dropWhile_append_of_pos h, List.takeWhile_cons, List.dropWhile_cons, hhead]
  simp

end Decimal

@[simp] theorem Numeral.signed_false (cs : List Char) : signed false cs = cs := rfl

theorem Numeral.signed_append (negative : Bool) (cs ds : List Char) :
    signed negative (cs ++ ds) = signed negative cs ++ ds := by
  cases negative <;> rfl

/-- Digits with an optional point and an optional exponent. -/
structure Layout where
  whole : List Char
  /-- the digits after the point, if there is one -/
  fraction : Option (List Char)
  /-- the mark of an exponent and what follows it, if there is one -/
  exponent : Option (Char × List Char)

namespace Layout

/-- What stands before the exponent. -/
def mantissa (l : Layout) : List Char :=
  match l.fraction with
  | none => l.whole
  | some cs => l.whole ++ '.' :: cs

/-- The text of a layout. -/
def chars (l : Layout) : List Char :=
  match l.exponent with
  | none => l.mantissa
  | some (mark, cs) => l.mantissa ++ mark :: cs

/-- All digits of a layout. -/
def digits (l : Layout) : List Char := l.whole ++ l.fraction.getD []

/-- Whether a layout has a point or an exponent. -/
def isFractional (l : Layout) : Bool := l.fraction.isSome || l.exponent.isSome

/-- Whether `c` may stand in an exponent. -/
def isInExponent (c : Char) : Bool := isDigit c || c == '+' || c == '-'

/-- Whether a layout is made of digits as it should be. -/
structure IsPlain (l : Layout) : Prop where
  ne_nil : l.whole ≠ []
  all_whole : l.whole.all isDigit = true
  all_fraction : (l.fraction.getD []).all isDigit = true
  exponent : ∀ mark cs, l.exponent = some (mark, cs) →
    Decimal.isExponentMark mark = true ∧ cs.all isInExponent = true

/-- Whether `c` may stand in a layout. -/
def isInLayout (c : Char) : Bool :=
  isInExponent c || c == '.' || Decimal.isExponentMark c

section

variable {l : Layout} (h : l.IsPlain)
include h

/-- All digits of a layout are digits. -/
theorem all_digits : l.digits.all isDigit = true := by
  simp [digits, h.all_whole, h.all_fraction]

theorem digits_ne_nil : l.digits ≠ [] := by
  simp [digits, h.ne_nil]

/-- A layout begins with a digit. -/
theorem exists_chars_eq : ∃ d cs, l.chars = d :: cs ∧ l.whole.head? = some d ∧
    isDigit d = true := by
  rcases l with ⟨- | ⟨d, whole⟩, fraction, exponent⟩
  · exact absurd rfl h.ne_nil
  · obtain ⟨hd, -⟩ := Bool.and_eq_true_iff.1 h.all_whole
    rcases fraction with - | fraction <;> rcases exponent with - | ⟨mark, cs⟩ <;>
      exact ⟨d, _, rfl, rfl, hd⟩

theorem isInLayout_of_mem_mantissa {c : Char} (hc : c ∈ l.mantissa) :
    isDigit c = true ∨ c = '.' := by
  rcases l with ⟨whole, - | fraction, exponent⟩
  · exact .inl (List.all_eq_true.1 h.all_whole c hc)
  · rcases List.mem_append.1 hc with hc | hc
    · exact .inl (List.all_eq_true.1 h.all_whole c hc)
    · rcases List.mem_cons.1 hc with rfl | hc
      · exact .inr rfl
      · exact .inl (List.all_eq_true.1 h.all_fraction c hc)

/-- Only digits, a point, signs and the mark of an exponent are in a layout. -/
theorem isInLayout_of_mem {c : Char} (hc : c ∈ l.chars) : isInLayout c = true := by
  have hmantissa (hc : c ∈ l.mantissa) : isInLayout c = true := by
    rcases isInLayout_of_mem_mantissa h hc with hc | rfl
    · simp [isInLayout, isInExponent, hc]
    · rfl
  rw [chars] at hc
  split at hc
  · exact hmantissa hc
  · rename_i mark cs hexponent
    obtain ⟨hmark, hcs⟩ := h.exponent mark cs hexponent
    rcases List.mem_append.1 hc with hc | hc
    · exact hmantissa hc
    · rcases List.mem_cons.1 hc with rfl | hc
      · simp [isInLayout, hmark]
      · simp [isInLayout, List.all_eq_true.1 hcs c hc]

/-- Nothing in a layout but what may stand there. -/
theorem notMem_signed (negative : Bool) {c : Char} (hc : isInLayout c = false) :
    c ∉ signed negative l.chars := by
  intro hmem
  have hchars (hmem : c ∈ l.chars) : False := by
    rw [isInLayout_of_mem h hmem] at hc
    cases hc
  rcases negative with - | -
  · exact hchars hmem
  · rcases List.mem_cons.1 hmem with rfl | hmem
    · cases hc
    · exact hchars hmem

/-! ### Taking layouts apart -/

/-- The exponent of a layout is what stands behind its first mark. -/
theorem splitFirst_isExponentMark (negative : Bool) :
    Decimal.splitFirst Decimal.isExponentMark (signed negative l.chars) =
      (signed negative l.mantissa, l.exponent.map Prod.snd) := by
  have hmantissa : (signed negative l.mantissa).all (!Decimal.isExponentMark ·) = true := by
    have hall : l.mantissa.all (!Decimal.isExponentMark ·) = true := by
      rw [List.all_eq_true]
      intro c hc
      rcases isInLayout_of_mem_mantissa h hc with hc | rfl
      · have he : c ≠ 'e' := ne_of_isDigit hc (by decide)
        have hE : c ≠ 'E' := ne_of_isDigit hc (by decide)
        simp [Decimal.isExponentMark, he, hE]
      · rfl
    rcases negative with - | -
    · exact hall
    · exact hall
  rcases hexponent : l.exponent with - | ⟨mark, cs⟩
  · rw [chars, hexponent]
    exact Decimal.splitFirst_of_all hmantissa
  · obtain ⟨hmark, -⟩ := h.exponent mark cs hexponent
    rw [chars, hexponent]
    dsimp only
    rw [signed_append]
    exact Decimal.splitFirst_append hmantissa hmark

/-- The fraction of a layout is what stands behind its point. -/
theorem splitFirst_point (negative : Bool) :
    Decimal.splitFirst (· == '.') (signed negative l.mantissa) =
      (signed negative l.whole, l.fraction) := by
  have hwhole : (signed negative l.whole).all (fun c => !(c == '.')) = true := by
    have hall : l.whole.all (fun c => !(c == '.')) = true := by
      rw [List.all_eq_true]
      intro c hc
      have hpoint : c ≠ '.' := ne_of_isDigit (List.all_eq_true.1 h.all_whole c hc) (by decide)
      simp [hpoint]
    rcases negative with - | -
    · exact hall
    · exact hall
  rcases hfraction : l.fraction with - | cs
  · rw [mantissa, hfraction]
    exact Decimal.splitFirst_of_all hwhole
  · rw [mantissa, hfraction]
    dsimp only
    rw [signed_append]
    exact Decimal.splitFirst_append hwhole rfl

/-- A layout reads as a decimal if its exponent and scale have 64 bits. -/
theorem parse?_signed (negative : Bool) :
    Decimal.parse? (String.ofList (signed negative l.chars)) =
      (Decimal.exponent? (l.exponent.map Prod.snd)).bind fun exponent =>
        let scale : Int := (l.fraction.getD []).length - exponent
        if fitsInt64 scale then
          some ⟨if negative then -(value 10 l.digits : Int) else value 10 l.digits, scale⟩
        else none := by
  have hparts : Decimal.ofParts? (signed negative l.whole) (l.fraction.getD []) =
      fun exponent =>
        let scale : Int := (l.fraction.getD []).length - exponent
        if fitsInt64 scale then
          some ⟨if negative then -(value 10 l.digits : Int) else value 10 l.digits, scale⟩
        else none := by
    funext exponent
    rw [Decimal.ofParts?, ← signed_append, ← digits,
      integer?_signed (isNumeral_of_all (all_digits h) (digits_ne_nil h))]
    rfl
  rw [Decimal.parse?, String.toList_ofList, splitFirst_isExponentMark h]
  dsimp only
  rw [splitFirst_point h, hparts]

end

/-! ### Layouts with an exponent -/

/-- Digits with the point after the first one, if there are more, and an exponent. -/
def scientific (digits : List Char) (mark : Char) (exponent : List Char) : Layout where
  whole := digits.take 1
  fraction := if digits.tail.isEmpty then none else some digits.tail
  exponent := some (mark, exponent)

section

variable {ds exponent : List Char} {mark : Char}

theorem getD_fraction_scientific :
    (scientific ds mark exponent).fraction.getD [] = ds.tail := by
  rw [scientific]
  dsimp only
  split
  · rename_i h
    exact (List.isEmpty_iff.1 h).symm
  · rfl

@[simp] theorem digits_scientific : (scientific ds mark exponent).digits = ds := by
  rw [digits, getD_fraction_scientific]
  rcases ds with - | ⟨d, ds⟩ <;> rfl

/-- In scientific notation all digits but one stand behind the point. -/
theorem length_fraction_scientific (hne : ds ≠ []) :
    (((scientific ds mark exponent).fraction.getD []).length : Int) = ds.length - 1 := by
  rw [getD_fraction_scientific]
  rcases ds with - | ⟨d, ds⟩
  · exact absurd rfl hne
  · simp

theorem isPlain_scientific (hall : ds.all isDigit = true) (hne : ds ≠ [])
    (hmark : Decimal.isExponentMark mark = true) (hexponent : exponent.all isInExponent = true) :
    (scientific ds mark exponent).IsPlain where
  ne_nil := by
    rcases ds with - | ⟨d, ds⟩
    · exact absurd rfl hne
    · exact List.cons_ne_nil _ _
  all_whole := by
    rcases ds with - | ⟨d, ds⟩
    · exact absurd rfl hne
    · simpa [scientific] using (Bool.and_eq_true_iff.1 hall).1
  all_fraction := by
    rw [getD_fraction_scientific]
    rcases ds with - | ⟨d, ds⟩
    · exact absurd rfl hne
    · exact (Bool.and_eq_true_iff.1 hall).2
  exponent := by
    intro _ _ h
    cases h
    exact ⟨hmark, hexponent⟩

/-- A single digit stands without a point before the exponent. -/
theorem chars_scientific_singleton (d : Char) :
    (scientific [d] mark exponent).chars = d :: mark :: exponent := rfl

/-- The point stands behind the first of several digits. -/
theorem chars_scientific_cons (d c : Char) :
    (scientific (d :: c :: ds) mark exponent).chars =
      (d :: '.' :: c :: ds) ++ mark :: exponent := rfl

end

/-! ### Layouts with a point -/

/-- Digits with a point among them. -/
def positional (whole fraction : List Char) : Layout := ⟨whole, some fraction, none⟩

theorem isPlain_positional {whole fraction : List Char} (hne : whole ≠ [])
    (hwhole : whole.all isDigit = true) (hfraction : fraction.all isDigit = true) :
    (positional whole fraction).IsPlain :=
  ⟨hne, hwhole, hfraction, nofun⟩

theorem all_take {ds : List Char} (h : ds.all isDigit = true) (n : Nat) :
    (ds.take n).all isDigit = true :=
  List.all_eq_true.2 fun c hc => List.all_eq_true.1 h c (List.mem_of_mem_take hc)

theorem all_drop {ds : List Char} (h : ds.all isDigit = true) (n : Nat) :
    (ds.drop n).all isDigit = true :=
  List.all_eq_true.2 fun c hc => List.all_eq_true.1 h c (List.mem_of_mem_drop hc)

/-- Digits with the point after the first `n` of them. -/
def pointed (n : Nat) (ds : List Char) : Layout := positional (ds.take n) (ds.drop n)

/-- Digits after the point, with `n` zeros between. -/
def padded (n : Nat) (ds : List Char) : Layout := positional ['0'] (List.replicate n '0' ++ ds)

section

variable {n : Nat} {ds : List Char} (hall : ds.all isDigit = true)
include hall

theorem isPlain_pointed (hne : ds ≠ []) (hn : n ≠ 0) : (pointed n ds).IsPlain := by
  refine isPlain_positional ?_ (all_take hall n) (all_drop hall n)
  simp [List.take_eq_nil_iff, hne, hn]

theorem isPlain_padded : (padded n ds).IsPlain := by
  refine isPlain_positional (List.cons_ne_nil _ _) rfl ?_
  rw [List.all_append, hall, all_replicate_zero]
  rfl

/-- Zeros before digits do not change their value. -/
theorem value_digits_padded : value 10 (padded n ds).digits = value 10 ds := by
  have hzeros := value_zeros_append (n + 1) hall
  rwa [List.replicate_succ] at hzeros

end

@[simp] theorem digits_pointed (n : Nat) (ds : List Char) : (pointed n ds).digits = ds :=
  List.take_append_drop n ds

end Layout

namespace Number

/-- The sign before a digit is split off. -/
theorem splitSign_signed {negative : Bool} {d : Char} {cs : List Char} (hd : isDigit d = true) :
    splitSign (signed negative (d :: cs)) = (negative, d :: cs) := by
  have hminus : d ≠ '-' := ne_of_isDigit hd (by decide)
  have hplus : d ≠ '+' := ne_of_isDigit hd (by decide)
  rcases negative with - | -
  · rw [signed, if_neg (by decide), splitSign]
    · simpa using hminus
    · simpa using hplus
  · rfl

theorem splitSuffix_of_notMem {c : Char} {cs : List Char} (h : c ∉ cs) :
    splitSuffix c cs = (cs, false) := by
  have hlast : cs.getLast? ≠ some c := fun hc => h (List.mem_of_getLast? hc)
  rw [splitSuffix, if_neg (by simpa using hlast)]

theorem splitSuffix_append (c : Char) (cs : List Char) :
    splitSuffix c (cs ++ [c]) = (cs, true) := by
  simp [splitSuffix]

section

variable {l : Layout} (h : l.IsPlain) (negative : Bool)
include h

/-- The sign before a layout is split off, since a layout begins with a digit. -/
theorem splitSign_chars : splitSign (signed negative l.chars) = (negative, l.chars) := by
  obtain ⟨d, cs, hcs, -, hd⟩ := Layout.exists_chars_eq h
  rw [hcs, splitSign_signed hd]

/-- A layout reads as a floating-point number, or as a decimal. -/
theorem floatToken?_of_splitSuffix {cs : List Char} {exact : Bool}
    (hcs : splitSuffix 'M' cs = (signed negative l.chars, exact)) :
    floatToken? cs =
      (floatExponent? (l.exponent.map Prod.snd)).bind fun exponent =>
        if exact then (Decimal.parse? (String.ofList (signed negative l.chars))).map .decimal
        else
          some (.float (Binary64.ofDecimal negative (value 10 l.digits)
            (exponent - (l.fraction.getD []).length))) := by
  have hmark := Layout.splitFirst_isExponentMark h false
  have hpoint := Layout.splitFirst_point h false
  simp only [signed_false] at hmark hpoint
  have hshape : (isNumeral 10 l.whole && (l.fraction.getD []).all isDigit) = true := by
    rw [isNumeral_of_all h.all_whole h.ne_nil, h.all_fraction]
    rfl
  rw [floatToken?, hcs]
  dsimp only
  rw [splitSign_chars h]
  dsimp only
  rw [hmark]
  dsimp only
  rw [hpoint]
  dsimp only
  rw [if_pos hshape]
  rfl

/-! ### Tokens that are no integers -/

omit h in
/-- A character that is no digit keeps a text from being a numeral. -/
theorem isNumeral_eq_false {radix : Nat} {cs : List Char} {c : Char} (hradix : radix ≤ 10)
    (hmem : c ∈ cs) (hc : isDigit c = false) : isNumeral radix cs = false := by
  rw [isNumeral, Bool.and_eq_false_iff]
  refine .inr (List.all_eq_false.2 ⟨c, hmem, fun hdigit => ?_⟩)
  have hten := isDigitIn_mono hradix hdigit
  rw [isDigitIn_ten, hc] at hten
  cases hten

omit h in
/-- A text with a character that is no digit does not have the shape of an integer, but for the mark
of a hexadecimal one. -/
theorem plainInteger?_eq_none {cs : List Char} {c : Char} (hmem : c ∈ cs) (hc : isDigit c = false)
    (hx : 'x' ∉ cs) (hX : 'X' ∉ cs) : plainInteger? cs = none := by
  have hzero : c ≠ '0' := by
    rintro rfl
    cases hc
  rw [plainInteger?.eq_def]
  split
  · simp [hzero] at hmem
  · rename_i rest _
    have hrest : c ∈ rest := by simpa [hzero] using hmem
    rw [isNumeral_eq_false (by decide) hrest hc, isNumeral_eq_false (by decide) hrest hc]
    rcases rest with - | ⟨x, digits⟩
    · cases hrest
    · have hmark : ¬ ((x == 'x' || x == 'X') && isNumeral 16 digits) = true := by
        simp only [List.mem_cons, not_or] at hx hX
        simp [Ne.symm hx.2.1, Ne.symm hX.2.1]
      dsimp only
      rw [if_neg hmark]
      rfl
  · rw [isNumeral_eq_false (by decide) hmem hc]
    rfl

end

end Number

/-- A layout with a point or an exponent has not the shape of an integer. -/
theorem Layout.plainInteger?_chars {l : Layout} (hl : l.IsPlain) (h : l.isFractional = true) :
    Number.plainInteger? l.chars = none := by
  have hnotMem {c : Char} (hc : isInLayout c = false) : c ∉ l.chars := notMem_signed hl false hc
  obtain ⟨c, hmem, hc⟩ : ∃ c ∈ l.chars, isDigit c = false := by
    rcases hexponent : l.exponent with - | ⟨mark, cs⟩
    · rw [isFractional, hexponent, Option.isSome_none, Bool.or_false, Option.isSome_iff_exists] at h
      obtain ⟨cs, hfraction⟩ := h
      exact ⟨'.', by simp [chars, mantissa, hexponent, hfraction], by decide⟩
    · obtain ⟨hmark, -⟩ := hl.exponent mark cs hexponent
      refine ⟨mark, by simp [chars, hexponent], ?_⟩
      simp only [Decimal.isExponentMark, Bool.or_eq_true, beq_iff_eq] at hmark
      rcases hmark with rfl | rfl <;> decide
  exact Number.plainInteger?_eq_none hmem hc (hnotMem (by decide)) (hnotMem (by decide))

end FormTree
