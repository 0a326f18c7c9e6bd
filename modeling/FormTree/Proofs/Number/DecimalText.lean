import FormTree.Proofs.Number.Grouped

/-!
# The texts of decimals

The text of a decimal is a sign or none, digits, a point with more digits or none, and an exponent
or none. Every such text is read as the decimal that it denotes, but they are not the only texts
that are read: the digits on the two sides of the point are one integer for the reader, so that
underscores may stand among them, the sign may stand right behind the point, and a side may be
empty.
-/

namespace FormTree

open Numeral Text

namespace Numeral.IsSigned

variable {negative : Bool} {body before after cs : List Char}

/-- What stands behind a sign is all of it in the text. -/
theorem subset (h : IsSigned negative body cs) : body ⊆ cs := by
  cases h with
  | unsigned => exact List.Subset.refl _
  | plus | minus => exact List.subset_cons_self _ _

theorem append (h : IsSigned negative body cs) (rest : List Char) :
    IsSigned negative (body ++ rest) (cs ++ rest) := by
  cases h with
  | unsigned => exact .unsigned _
  | plus => exact .plus _
  | minus => exact .minus _

/-- A text that ends with the digits of a number ends with a digit. -/
theorem exists_getLast? (h : IsSigned negative body cs) (hbody : isNumeral 10 body = true) :
    ∃ d ∈ cs.getLast?, isDigit d = true := by
  have hne : body ≠ [] := (isNumeral_ten_iff.1 hbody).1
  have hlast : cs.getLast? = some (body.getLast hne) := by
    cases h with
    | unsigned => exact List.getLast?_eq_some_getLast hne
    | plus | minus =>
      rw [List.getLast?_cons_of_ne_nil hne]
      exact List.getLast?_eq_some_getLast hne
  exact ⟨_, hlast, isDigit_of_mem hbody (List.getLast_mem hne)⟩

/-- The sign of a text is the sign of what stands before a point behind one of its digits. -/
theorem exists_of_append (h : IsSigned negative body (before ++ after))
    (hlast : ∃ d ∈ before.getLast?, isDigit d = true) :
    ∃ whole, IsSigned negative whole before ∧ whole ≠ [] ∧ body = whole ++ after := by
  obtain ⟨d, hd, hdigit⟩ := hlast
  rcases before with - | ⟨c, whole⟩
  · cases hd
  · have hne (hc : isDigit c = false) : whole ≠ [] := by
      rintro rfl
      cases hd
      simp [hc] at hdigit
    generalize hcs : c :: whole ++ after = cs at h
    cases h with
    | unsigned => exact ⟨c :: whole, .unsigned _, List.cons_ne_nil c whole, hcs.symm⟩
    | plus =>
      obtain ⟨rfl, rfl⟩ := List.cons.inj hcs
      exact ⟨whole, .plus whole, hne rfl, rfl⟩
    | minus =>
      obtain ⟨rfl, rfl⟩ := List.cons.inj hcs
      exact ⟨whole, .minus whole, hne rfl, rfl⟩

end Numeral.IsSigned

theorem Decimal.isExponentMark_eq_false {c : Char} (h : isDigit c = true) :
    isExponentMark c = false := by
  have he : c ≠ 'e' := ne_of_isDigit h (by decide)
  have hE : c ≠ 'E' := ne_of_isDigit h (by decide)
  simp [isExponentMark, he, hE]

/-! ### Layouts -/

namespace Layout

/-- Whether a layout is written out: digits, digits after the point if there is one, and an exponent
if there is one. -/
structure IsWritten (l : Layout) (exponent : Int) : Prop where
  whole : isNumeral 10 l.whole = true
  fraction : ∀ digits, l.fraction = some digits → isNumeral 10 digits = true
  exponent : IsExponent l.exponent exponent

/-- The exponent with its mark, if there is one. -/
def exponentText (l : Layout) : List Char := l.exponent.elim [] fun e => e.1 :: e.2

variable {l : Layout} {negative : Bool} {exponent : Int} {cs : List Char}

/-- A layout is its digits before the point, the point and those behind it, and the exponent. -/
theorem chars_eq_append (l : Layout) :
    l.chars = l.whole ++ (l.fraction.elim [] ('.' :: ·) ++ l.exponentText) := by
  rcases l with ⟨whole, - | fraction, - | ⟨mark, cs⟩⟩ <;> simp [chars, mantissa, exponentText]

theorem digits_subset_chars (l : Layout) : l.digits ⊆ l.chars := by
  rw [chars_eq_append, digits]
  refine List.append_subset.2 ⟨List.subset_append_left _ _, List.subset_append_of_subset_right _ ?_⟩
  rcases l.fraction with - | digits
  · exact List.nil_subset _
  · exact List.subset_append_of_subset_left _ (List.subset_cons_self _ _)

/-- No point is in an exponent, so that the first one in a layout is that of its mantissa. -/
theorem point_notMem_exponentText (h : IsExponent l.exponent exponent) : '.' ∉ l.exponentText := by
  rcases he : l.exponent with - | ⟨mark, cs⟩
  · simp [exponentText, he]
  · obtain ⟨hmark, hcs⟩ := h.isPlain he
    simp only [exponentText, he, Option.elim_some]
    refine List.not_mem_cons_of_ne_of_not_mem ?_ fun hmem => ?_
    · rintro rfl
      cases hmark
    · cases List.all_eq_true.1 hcs _ hmem

/-- An exponent begins with its mark, so that the digits before it end there. -/
theorem isDigit_eq_false_of_mem_head? (h : IsExponent l.exponent exponent) {d : Char}
    (hd : d ∈ l.exponentText.head?) : isDigit d = false := by
  rcases he : l.exponent with - | ⟨mark, cs⟩
  · simp [exponentText, he] at hd
  · have hmark := (h.isPlain he).1
    simp only [exponentText, he, Option.elim_some, List.head?_cons, Option.mem_some] at hd
    rw [hd] at hmark
    refine Bool.eq_false_iff.2 fun hdigit => ?_
    rw [Decimal.isExponentMark_eq_false hdigit] at hmark
    cases hmark

/-- A layout that is written out is one that a number is read from. -/
theorem IsWritten.isScaled (h : l.IsWritten exponent) : l.IsScaled exponent where
  whole := h.whole
  fraction := by
    rcases hfraction : l.fraction with - | digits
    · rfl
    · exact (isNumeral_ten_iff.1 (h.fraction digits hfraction)).2
  exponent := h.exponent

/-- Where nothing in the mantissa separates it, the parts of a layout are found again. -/
theorem parse?_chars (hdigits : ∀ c ∈ l.digits, c ≠ '.' ∧ Decimal.isExponentMark c = false)
    (hexponent : IsExponent l.exponent exponent) :
    Decimal.parse? (String.ofList l.chars) =
      if fitsInt64 exponent then
        Decimal.ofParts? l.whole (l.fraction.getD []) exponent
      else none := by
  have hmem {c : Char} (hc : c ∈ l.mantissa) : c = '.' ∨ c ∈ l.digits := by
    rcases l with ⟨whole, - | fraction, e⟩
    · exact .inr (List.mem_append_left _ hc)
    · simpa [mantissa, digits, or_left_comm] using hc
  have hmantissa : l.mantissa.all (!Decimal.isExponentMark ·) = true := by
    refine List.all_eq_true.2 fun c hc => ?_
    rcases hmem hc with rfl | hc
    · rfl
    · rw [(hdigits c hc).2]
      rfl
  -- the first mark is that of the exponent, and the first point before it that of the mantissa
  have hmark : Decimal.splitFirst Decimal.isExponentMark l.chars =
      (l.mantissa, l.exponent.map Prod.snd) := by
    rw [chars]
    split
    · rw [Decimal.splitFirst_of_all hmantissa, ‹l.exponent = none›]
      rfl
    · rename_i mark cs he
      rw [Decimal.splitFirst_append hmantissa (hexponent.isPlain he).1, he]
      rfl
  have hpoint : Decimal.splitFirst (· == '.') l.mantissa = (l.whole, l.fraction) := by
    have hwhole : l.whole.all (fun c => !(c == '.')) = true :=
      List.all_eq_true.2 fun c hc => by simpa using (hdigits c (List.mem_append_left _ hc)).1
    rw [mantissa]
    split
    · rw [Decimal.splitFirst_of_all hwhole, ‹l.fraction = none›]
    · rename_i fraction hfraction
      rw [Decimal.splitFirst_append hwhole rfl, hfraction]
  simp only [Decimal.parse?, String.toList_ofList, hmark, hpoint, Number.exponent?_eq_filter,
    hexponent.floatExponent?_eq, Option.filter_some]
  split <;> rfl

/-- A layout with a sign is a layout as well. -/
theorem exists_of_isSigned (h : IsSigned negative l.chars cs) :
    ∃ whole, ({ l with whole } : Layout).chars = cs ∧ IsSigned negative l.whole whole := by
  rw [chars_eq_append] at h
  generalize hrest : l.whole ++ _ = body at h
  cases h with
  | unsigned => exact ⟨l.whole, (chars_eq_append l).trans hrest, .unsigned _⟩
  | plus => exact ⟨'+' :: l.whole, by rw [chars_eq_append, ← hrest]; rfl, .plus _⟩
  | minus => exact ⟨'-' :: l.whole, by rw [chars_eq_append, ← hrest]; rfl, .minus _⟩

end Layout

/-! ### Decimals -/

namespace Decimal

/-- Whether characters are the text of a decimal: a layout that is written out, after a sign or
none. The exponent and the scale have 64 bits. -/
inductive IsTextOf : List Char → Decimal → Prop
  | intro {negative : Bool} {l : Layout} {exponent : Int} {cs : List Char}
      (hsigned : IsSigned negative l.chars cs) (hl : l.IsWritten exponent)
      (hexponent : fitsInt64 exponent = true) (hscale : fitsInt64 (l.places - exponent) = true) :
      IsTextOf cs ⟨signedValue 10 negative l.digits, l.places - exponent⟩

/-- Whether characters are read as a decimal: what stands around the point is, without the point,
digits with underscores among them, after a sign or none. The underscores after the point count as
places. -/
inductive IsReadAs : List Char → Decimal → Prop
  | intro {negative : Bool} {l : Layout} {body : List Char} {exponent : Int}
      (hsigned : IsSigned negative body l.digits) (hbody : isGrouped 10 body = true)
      (hl : Layout.IsExponent l.exponent exponent) (hexponent : fitsInt64 exponent = true)
      (hscale : fitsInt64 (l.places - exponent) = true) :
      IsReadAs l.chars ⟨signedValue 10 negative (ungrouped body), l.places - exponent⟩

/-- Whether a digit stands right before every point and another right behind it. -/
def IsPointed (cs : List Char) : Prop :=
  ∀ before after, cs = before ++ '.' :: after →
    (∃ d ∈ before.getLast?, isDigit d = true) ∧ ∃ d ∈ after.head?, isDigit d = true

variable {negative : Bool} {l : Layout} {body cs : List Char} {exponent : Int} {d : Decimal}

/-- Nothing in an integer separates the parts of a decimal. -/
theorem ne_separator_of_isGrouped (hsigned : IsSigned negative body cs)
    (hbody : isGrouped 10 body = true) {c : Char} (hc : c ∈ cs) :
    c ≠ '.' ∧ isExponentMark c = false := by
  have hmem {c : Char} (hc : c ∈ body) : c ≠ '.' ∧ isExponentMark c = false := by
    rcases eq_underscore_or_isDigitIn hbody hc with rfl | hdigit
    · decide
    · rw [isDigitIn_ten] at hdigit
      exact ⟨ne_of_isDigit hdigit (by decide), isExponentMark_eq_false hdigit⟩
  cases hsigned with
  | unsigned => exact hmem hc
  | plus | minus =>
    rcases List.mem_cons.1 hc with rfl | hc
    · decide
    · exact hmem hc

/-- What is read as a decimal by the rule is read as it by the function. -/
theorem IsReadAs.parse?_eq (h : IsReadAs cs d) : parse? (String.ofList cs) = some d := by
  cases h with
  | intro hsigned hbody hl hexponent hscale =>
    have hinteger := integer?_eq_some_iff.2 ⟨_, _, hsigned, hbody, rfl⟩
    rw [Layout.parse?_chars (fun c hc => ne_separator_of_isGrouped hsigned hbody hc) hl,
      if_pos hexponent, ofParts?, ← Layout.digits, hinteger]
    exact if_pos hscale

/-- What the function reads, the rule reads: around the first point and before the first mark of an
exponent stand the digits of an integer. -/
theorem isReadAs_of_parse? {text : String} (h : parse? text = some d) : IsReadAs text.toList d := by
  rcases hmark : splitFirst isExponentMark text.toList with ⟨mantissa, exponentText⟩
  rcases hpoint : splitFirst (· == '.') mantissa with ⟨whole, fraction⟩
  simp only [parse?, hmark, hpoint] at h
  obtain ⟨exponent, hexponent, hparts⟩ := Option.bind_eq_some_iff.1 h
  obtain ⟨unscaled, hinteger, hvalue⟩ := Option.bind_eq_some_iff.1 hparts
  obtain ⟨hscale, ⟨⟩⟩ := Option.ite_none_right_eq_some.1 hvalue
  obtain ⟨negative, body, hsigned, hbody, rfl⟩ := integer?_eq_some_iff.1 hinteger
  obtain ⟨marked, rfl, hmarked, hchars⟩ := Number.exists_layout_of_splitFirst hmark hpoint
  rw [Number.exponent?_eq_filter, Option.filter_eq_some_iff] at hexponent
  rw [← hchars]
  exact .intro (l := ⟨whole, fraction, marked⟩) hsigned hbody
    (Layout.isExponent_of_floatExponent? hmarked hexponent.1) hexponent.2 hscale

/-! ### The texts of decimals among those that are read -/

/-- Without underscores, digits are read by the same rule. -/
theorem IsTextOf.isReadAs (h : IsTextOf cs d) : IsReadAs cs d := by
  cases h with
  | @intro negative l exponent _ hsigned hl hexponent hscale =>
    obtain ⟨whole, rfl, hwhole⟩ := Layout.exists_of_isSigned hsigned
    have hdigits : isNumeral 10 l.digits = true :=
      isNumeral_of_all (Layout.all_digits hl.isScaled.isPlain)
        (Layout.digits_ne_nil hl.isScaled.isPlain)
    rw [← ungrouped_of_isNumeral hdigits]
    exact .intro (l := { l with whole }) (hwhole.append _) (isGrouped_of_isNumeral hdigits)
      hl.exponent hexponent hscale

/-- No underscore is in the text of a decimal. -/
theorem IsTextOf.underscore_notMem (h : IsTextOf cs d) : '_' ∉ cs := by
  cases h with
  | intro hsigned hl =>
    have hchars : '_' ∉ _ := Layout.notMem_signed hl.isScaled.isPlain false rfl
    cases hsigned with
    | unsigned => exact hchars
    | plus | minus => exact List.not_mem_cons_of_ne_of_not_mem (by decide) hchars

/-- A point stands between digits in the text of a decimal. -/
theorem IsTextOf.isPointed (h : IsTextOf cs d) : IsPointed cs := by
  cases h with
  | @intro negative l exponent _ hsigned hl =>
    obtain ⟨whole, rfl, hwhole⟩ := Layout.exists_of_isSigned hsigned
    have hlast := hwhole.exists_getLast? hl.whole
    have hpoint : '.' ∉ whole := fun hmem =>
      (ne_separator_of_isGrouped hwhole (isGrouped_of_isNumeral hl.whole) hmem).1 rfl
    have htext := Layout.point_notMem_exponentText hl.exponent
    intro before after h
    rw [Layout.chars_eq_append] at h
    rcases hfraction : l.fraction with - | digits
    · -- without a fraction there is no point at all
      have hmem : '.' ∈ whole ++ l.exponentText := by
        simp only [hfraction, Option.elim_none, List.nil_append] at h
        rw [show whole ++ l.exponentText = _ from h]
        simp
      exact absurd hmem (by simp [hpoint, htext])
    · have hdigits := hl.fraction digits hfraction
      simp only [hfraction, Option.elim_some, List.cons_append] at h
      have hmem : '.' ∉ digits := notMem_of_isNumeral hdigits (by decide)
      have hrest : '.' ∉ digits ++ l.exponentText := by simp [hmem, htext]
      obtain ⟨rfl, -, rfl⟩ := (List.append_cons_inj_of_notMem hpoint hrest).1 h
      obtain ⟨c, cs, rfl, hc⟩ := exists_cons_of_isNumeral hdigits
      exact ⟨hlast, c, rfl, hc⟩

/-- Underscores and points at an end of the digits are all that the rule for reading allows in
addition. -/
theorem IsReadAs.isTextOf (h : IsReadAs cs d) (hscore : '_' ∉ cs) (hpointed : IsPointed cs) :
    IsTextOf cs d := by
  cases h with
  | @intro negative l body exponent hsigned hbody hl hexponent hscale =>
    -- the sign is in front of the whole digits, and there are digits on both sides of the point
    have hsides : ∃ whole, IsSigned negative whole l.whole ∧ whole ≠ [] ∧
        body = whole ++ l.fraction.getD [] ∧ ∀ digits, l.fraction = some digits → digits ≠ [] := by
      rcases hfraction : l.fraction with - | digits
      · obtain ⟨c, cs, hcons, -⟩ := exists_cons_of_isGrouped hbody
        rw [Layout.digits, hfraction, Option.getD_none, List.append_nil] at hsigned
        exact ⟨body, hsigned, by simp [hcons], by simp, by simp⟩
      · rw [Layout.chars_eq_append, hfraction] at hpointed
        obtain ⟨hlast, c, hc, hdigit⟩ := hpointed l.whole (digits ++ l.exponentText) rfl
        rw [Layout.digits, hfraction, Option.getD_some] at hsigned
        obtain ⟨whole, hwhole, hne, hwhole_eq⟩ := hsigned.exists_of_append hlast
        refine ⟨whole, hwhole, hne, hwhole_eq, ?_⟩
        rintro _ ⟨⟩ rfl
        rw [Layout.isDigit_eq_false_of_mem_head? hl hc] at hdigit
        cases hdigit
    obtain ⟨whole, hwhole, hne, rfl, hfraction⟩ := hsides
    have hnumeral : isNumeral 10 (whole ++ l.fraction.getD []) = true :=
      isNumeral_of_isGrouped hbody fun hmem => hscore (l.digits_subset_chars (hsigned.subset hmem))
    rw [ungrouped_of_isNumeral hnumeral]
    obtain ⟨-, hall⟩ := isNumeral_ten_iff.1 hnumeral
    rw [List.all_append, Bool.and_eq_true] at hall
    refine .intro (l := { l with whole }) ?_ ⟨isNumeral_of_all hall.1 hne, ?_, hl⟩ hexponent hscale
    · rw [Layout.chars_eq_append, Layout.chars_eq_append]
      exact hwhole.append _
    · intro digits hdigits
      have hsome : l.fraction = some digits := hdigits
      rw [hsome] at hall
      exact isNumeral_of_all hall.2 (hfraction digits hsome)

/-- Exactly the layouts of an integer with underscores are read, and a text that is read is the text
of a decimal just if it has no underscore and its points stand between digits. -/
theorem parse?_eq_some_iff_isReadAs (text : String) (d : Decimal) :
    (parse? text = some d ↔ IsReadAs text.toList d) ∧
      (IsTextOf text.toList d ↔
        parse? text = some d ∧ '_' ∉ text.toList ∧ IsPointed text.toList) := by
  have hread : parse? text = some d ↔ IsReadAs text.toList d :=
    ⟨isReadAs_of_parse?, fun h => String.ofList_toList (s := text) ▸ h.parse?_eq⟩
  refine ⟨hread, fun h => ⟨hread.2 h.isReadAs, h.underscore_notMem, h.isPointed⟩, ?_⟩
  rintro ⟨h, hscore, hpointed⟩
  exact (hread.1 h).isTextOf hscore hpointed

/-- The sign of a decimal may stand behind the point. -/
example : parse? ".-5" = some ⟨-5, 2⟩ := by decide +kernel

end Decimal

end FormTree
