import FormTree.Proofs.Form.Legal
import FormTree.Proofs.Number.Nearest
import FormTree.Proofs.Number.Text

/-!
# Reading the texts of floating-point numbers back

The text of a number has the shortest digits that round to it, in one of four layouts, and all of
them are read as a number that those digits round to.
-/

namespace FormTree

open Numeral Text

namespace Binary64

variable {x : Binary64}

/-! ### Layouts -/

/-- Whether a layout denotes digits with a decimal exponent, up to zeros at their end, and is told
from an integer by a point or an exponent. -/
structure Shows (ds : List Char) (e : Int) (l : Layout) : Prop where
  plain : l.IsPlain
  fractional : l.isFractional = true
  value_eq : ∃ (exponent : Int) (k : Nat),
    Number.floatExponent? (l.exponent.map Prod.snd) = some exponent ∧
      value 10 l.digits = value 10 ds * 10 ^ k ∧ exponent - (l.fraction.getD []).length = e - k

section

variable {ds : List Char} {e : Int} (hall : ds.all isDigit = true) (hne : ds ≠ [])
include hall

include hne in
/-- Zeros stand between the digits and the point, and one after it. -/
theorem shows_trailing (he : 0 ≤ e) :
    Shows ds e (.positional (ds ++ List.replicate e.toNat '0') ['0']) := by
  refine ⟨Layout.isPlain_positional (by simp [hne]) ?_ rfl, rfl, 0, e.toNat + 1, rfl, ?_, ?_⟩
  · rw [List.all_append, hall, all_replicate_zero]
    rfl
  · have hdigits : (Layout.positional (ds ++ List.replicate e.toNat '0') ['0']).digits =
        ds ++ List.replicate (e.toNat + 1) '0' := by
      simp [Layout.digits, Layout.positional, List.replicate_succ']
    rw [hdigits, value_append hall (all_replicate_zero _), value_replicate_zero,
      List.length_replicate, Nat.mul_comm, Nat.add_zero]
  · simp only [Layout.positional, Option.getD_some, List.length_singleton]
    omega

include hne in
/-- The point stands among the digits. -/
theorem shows_pointed (hpos : 0 < ds.length + e) (he : e < 0) :
    Shows ds e (.pointed (ds.length + e).toNat ds) := by
  refine ⟨Layout.isPlain_pointed hall hne (by omega), rfl, 0, 0, rfl, ?_, ?_⟩
  · rw [Layout.digits_pointed, pow_zero, Nat.mul_one]
  · simp only [Layout.pointed, Layout.positional, Option.getD_some, List.length_drop]
    omega

/-- Zeros stand between the point and the digits. -/
theorem shows_padded (hplace : ds.length + e ≤ 0) :
    Shows ds e (.padded (-(ds.length + e)).toNat ds) := by
  refine ⟨Layout.isPlain_padded hall, rfl, 0, 0, rfl, ?_, ?_⟩
  · rw [Layout.value_digits_padded hall, pow_zero, Nat.mul_one]
  · simp only [Layout.padded, Layout.positional, Option.getD_some, List.length_append,
      List.length_replicate]
    omega

include hne in
/-- One digit stands before the point, and the exponent says how many more there should be. -/
theorem shows_scientific :
    Shows ds e (.scientific ds 'e' (toString (ds.length + e - 1)).toList) := by
  refine ⟨Layout.isPlain_scientific hall hne rfl (Number.all_isInExponent_toString _),
    Bool.or_true _, ds.length + e - 1, 0, Number.floatExponent?_toString _, ?_, ?_⟩
  · rw [Layout.digits_scientific, pow_zero, Nat.mul_one]
  · rw [Layout.length_fraction_scientific hne]
    omega

include hne in
/-- Digits laid out are a layout that denotes what the digits do. -/
theorem exists_layout_layOut (e : Int) :
    ∃ l, Shows ds e l ∧ layOut ds e = l.chars := by
  have hlength : 0 < ds.length := List.length_pos_iff.2 hne
  rw [layOut.eq_def]
  dsimp only
  by_cases hA : 0 ≤ e ∧ ds.length + e ≤ 16
  · rw [if_pos (by simpa using hA)]
    exact ⟨_, shows_trailing hall hne hA.1, rfl⟩
  rw [if_neg (by simpa using hA)]
  by_cases hB : 0 < ds.length + e ∧ ds.length + e ≤ 16
  · rw [if_pos (by simpa using hB)]
    exact ⟨_, shows_pointed hall hne hB.1 (by omega), rfl⟩
  rw [if_neg (by simpa using hB)]
  by_cases hC : -5 < ds.length + e ∧ ds.length + e ≤ 0
  · rw [if_pos (by simpa using hC)]
    exact ⟨_, shows_padded hall hC.2, rfl⟩
  rw [if_neg (by simpa using hC)]
  refine ⟨_, shows_scientific hall hne, ?_⟩
  rcases ds with - | ⟨c, - | ⟨d, ds⟩⟩
  · exact absurd rfl hne
  · rfl
  · rfl

end

/-- A layout with a point or an exponent is read as a floating-point number. -/
theorem ofToken?_layout {l : Layout} {exponent : Int} (hl : l.IsPlain) (negative : Bool)
    (hfractional : l.isFractional = true)
    (hexponent : Number.floatExponent? (l.exponent.map Prod.snd) = some exponent) :
    Number.ofToken? (String.ofList (signed negative l.chars)) =
      some (.float (ofDecimal negative (value 10 l.digits)
        (exponent - (l.fraction.getD []).length))) := by
  have hsuffix := Number.splitSuffix_of_notMem
    (Layout.notMem_signed hl negative (c := 'M') (by decide))
  rw [Number.ofToken?_layout hl (Layout.plainInteger?_chars hl hfractional),
    Number.floatToken?_of_splitSuffix hl negative hsuffix, hexponent]
  rfl

/-- The text of a finite number is a layout that is read as that number. -/
theorem exists_layout_shortestText (hfinite : x.code < infinityCode) :
    ∃ l : Layout, l.IsPlain ∧ x.shortestText.toList = signed x.isNegative l.chars ∧
      Number.ofToken? x.shortestText = some (.float x) := by
  -- both for zero and for other numbers, the layout and what it denotes is all that is needed
  suffices h : ∃ (l : Layout) (exponent : Int), l.IsPlain ∧
      x.shortestText.toList = signed x.isNegative l.chars ∧
      l.isFractional = true ∧
      Number.floatExponent? (l.exponent.map Prod.snd) = some exponent ∧
      ofDecimal x.isNegative (value 10 l.digits) (exponent - (l.fraction.getD []).length) = x by
    obtain ⟨l, exponent, hl, htext, hfractional, hexponent, hvalue⟩ := h
    refine ⟨l, hl, htext, ?_⟩
    rw [← String.ofList_toList (s := x.shortestText), htext,
      ofToken?_layout hl _ hfractional hexponent, hvalue]
  rw [shortestText, String.toList_ofList]
  by_cases hzero : x.code = 0
  · refine ⟨.positional ['0'] ['0'], 0, Layout.isPlain_positional (by decide) rfl rfl, ?_,
      rfl, rfl, ?_⟩
    · rw [if_pos hzero]
      rfl
    · have hcode := ofCode_code x
      rw [hzero] at hcode
      exact hcode
  · have hpos : 0 < x.code := Nat.pos_of_ne_zero hzero
    rw [if_neg hzero]
    rcases hshortest : x.shortest with ⟨d, e⟩
    have hrounded := isRounded_shortest hpos hshortest
    obtain ⟨l, ⟨hl, hfractional, exponent, k, hexponent, hvalue, hplace⟩, hchars⟩ :=
      exists_layout_layOut (all_toDigits d) Nat.toDigits_ne_nil e
    refine ⟨l, exponent, hl, ?_, hfractional, hexponent, ?_⟩
    · dsimp only
      rw [hchars]
      rfl
    · have heq : ((d * 10 ^ k : Nat) : ℚ) * 10 ^ (e - k) = d * 10 ^ e := by
        push_cast
        rw [mul_assoc, ← zpow_natCast, ← zpow_add₀ (by norm_num), add_sub_cancel]
      rw [← heq] at hrounded
      rw [hvalue, hplace, value_toDigits]
      exact (isNearest_iff.1 (hrounded.isNearest hfinite)).symm

end Binary64

namespace Number

/-- Whether a number is written in digits, as all are but what is not finite. -/
def isInDigits : Number → Bool
  | .float x => x.code < Binary64.infinityCode
  | _ => true

/-- A finite number is written in the shortest way. -/
theorem floatText_of_lt {x : Binary64} (h : x.code < Binary64.infinityCode) :
    floatText x = x.shortestText := by
  have hnan : ¬ x.isNaN = true := by
    simp only [Binary64.isNaN, decide_eq_true_eq]
    omega
  have hinfinite : ¬ x.isInfinite = true := by
    simp only [Binary64.isInfinite, beq_iff_eq]
    omega
  rw [floatText, if_neg hnan, if_neg hinfinite]

/-- Whether characters are those of a number from the first to the last one. -/
def IsToken (cs : List Char) : Prop :=
  ∃ negative d rest, cs = signed negative (d :: rest) ∧ isDigit d = true ∧
    rest.all (!endsNumber ·) = true

/-- A token is not empty. -/
theorem IsToken.exists_cons {cs : List Char} (h : IsToken cs) : ∃ c rest, cs = c :: rest := by
  obtain ⟨negative, d, rest, rfl, -⟩ := h
  rcases negative with - | -
  · exact ⟨d, rest, rfl⟩
  · exact ⟨'-', d :: rest, rfl⟩

theorem endsNumber_of_isDigit {c : Char} (h : isDigit c = true) : endsNumber c = false :=
  endsNumber_of_digitValue? (digitValue?_of_isDigit (by decide : 10 ≤ 10) h)

/-- No character of a layout ends a number. -/
theorem endsNumber_of_isInLayout {c : Char} (h : Layout.isInLayout c = true) :
    endsNumber c = false := by
  simp only [Layout.isInLayout, Layout.isInExponent, Decimal.isExponentMark, Bool.or_eq_true,
    beq_iff_eq] at h
  rcases h with (((h | rfl) | rfl) | rfl) | rfl | rfl
  · exact endsNumber_of_isDigit h
  all_goals decide

/-- Characters that do not end a number are a token of one if a digit comes first, behind the
sign. -/
theorem isToken_of_all {negative : Bool} {cs : List Char} {d : Char} (hhead : cs.head? = some d)
    (hd : isDigit d = true) (hcs : ∀ c ∈ cs, endsNumber c = false) :
    IsToken (signed negative cs) := by
  rcases cs with - | ⟨c, cs⟩
  · cases hhead
  · cases hhead
    refine ⟨negative, d, cs, rfl, hd, List.all_eq_true.2 fun c hc => ?_⟩
    rw [hcs c (List.mem_cons_of_mem _ hc)]
    rfl

/-- A layout is a token, with a suffix or without. -/
theorem isToken_layout {l : Layout} (hl : l.IsPlain) (negative : Bool) (suffix : List Char)
    (hsuffix : ∀ c ∈ suffix, endsNumber c = false) :
    IsToken (signed negative (l.chars ++ suffix)) := by
  obtain ⟨d, cs, hcs, -, hd⟩ := Layout.exists_chars_eq hl
  refine isToken_of_all (d := d) (by rw [hcs]; rfl) hd fun c hc => ?_
  rcases List.mem_append.1 hc with hc | hc
  · exact endsNumber_of_isInLayout (Layout.isInLayout_of_mem hl hc)
  · exact hsuffix c hc

theorem isToken_toDigits (n : Nat) (negative : Bool) (suffix : List Char)
    (hsuffix : ∀ c ∈ suffix, endsNumber c = false) :
    IsToken (signed negative (Nat.toDigits 10 n ++ suffix)) := by
  obtain ⟨d, hhead, hd⟩ := head?_toDigits_isDigit n
  refine isToken_of_all (d := d) (by rw [List.head?_append, hhead]; rfl) hd fun c hc => ?_
  rcases List.mem_append.1 hc with hc | hc
  · exact endsNumber_of_isDigit (List.all_eq_true.1 (all_toDigits n) c hc)
  · exact hsuffix c hc

/-- A number written in digits is a token that begins with a digit, after a sign. -/
theorem isToken_spelling {n : Number} (h : n.isInDigits = true) : IsToken n.spelling.toList := by
  cases n with
  | int n =>
    have htoken := isToken_toDigits n.toInt.natAbs (decide (n.toInt < 0)) [] (List.forall_mem_nil _)
    rwa [List.append_nil, ← toList_toString] at htoken
  | big n =>
    have htoken := isToken_toDigits n.natAbs (decide (n < 0)) ['N']
      (List.forall_mem_singleton.2 (by decide))
    rw [signed_append, ← toList_toString] at htoken
    rw [spelling, String.toList_append]
    exact htoken
  | ratio q =>
    have htoken := isToken_toDigits q.num.natAbs (decide (q.num < 0))
      ('/' :: Nat.toDigits 10 q.den) fun c hc => ?_
    · rw [signed_append, ← toList_toString] at htoken
      rw [spelling, String.toList_append, String.toList_append, Nat.toString_eq_repr,
        Nat.toList_repr, List.append_assoc]
      exact htoken
    · rcases List.mem_cons.1 hc with rfl | hc
      · decide
      · exact endsNumber_of_isDigit (List.all_eq_true.1 (all_toDigits q.den) c hc)
  | float x =>
    obtain ⟨l, hl, htext, -⟩ := Binary64.exists_layout_shortestText (of_decide_eq_true h)
    have htoken := isToken_layout hl x.isNegative [] (List.forall_mem_nil _)
    rw [List.append_nil, ← htext] at htoken
    rwa [spelling, floatText_of_lt (of_decide_eq_true h)]
  | decimal d =>
    obtain ⟨l, hl, htext, -⟩ := d.exists_layout
    have htoken := isToken_layout hl (decide (d.unscaled < 0)) ['M']
      (List.forall_mem_singleton.2 (by decide))
    rw [signed_append, ← htext] at htoken
    rw [spelling, String.toList_append]
    exact htoken

/-- The spelling of a number in digits is read as that number just if the number is faithful. -/
theorem ofToken?_spelling_iff {n : Number} (hnormal : n.IsNormal) (h : n.isInDigits = true) :
    ofToken? n.spelling = some n ↔ n.isFaithful = true := by
  cases n with
  | int n => exact iff_of_true (ofToken?_int n) rfl
  | big n => exact iff_of_true (ofToken?_big n) rfl
  | ratio q => exact iff_of_true (ofToken?_ratio hnormal) rfl
  | float x =>
    obtain ⟨l, -, -, hread⟩ := Binary64.exists_layout_shortestText (of_decide_eq_true h)
    have hfaithful : (Number.float x).isFaithful = true := by
      have hlt : x.code < Binary64.infinityCode := of_decide_eq_true h
      simp only [isFaithful, Binary64.isNaN, Bool.not_eq_true', decide_eq_false_iff_not]
      omega
    rw [spelling, floatText_of_lt (of_decide_eq_true h)]
    exact iff_of_true hread hfaithful
  | decimal d => exact (ofToken?_decimal_iff hnormal).trans (Bool.not_eq_true' _).symm.to_iff

/-- What the spelling of a number is read as in place of it does not equal it. -/
theorem same_eq_false_of_ofToken? {n m : Number} (hnormal : n.IsNormal) (h : n.isInDigits = true)
    (hfaithful : n.isFaithful = false) (hread : ofToken? n.spelling = some m) :
    n.same m = false := by
  have hiff := ofToken?_spelling_iff hnormal h
  have hne : n ≠ m := by
    rintro rfl
    rw [hiff.1 hread] at hfaithful
    cases hfaithful
  cases n with
  | decimal d =>
    cases m with
    | decimal e => exact beq_eq_false_iff_ne.2 fun hd => hne (congrArg Number.decimal hd)
    | _ => rfl
  | float x =>
    have hlt : x.code < Binary64.infinityCode := of_decide_eq_true h
    simp only [isFaithful, Binary64.isNaN, Bool.not_eq_false', decide_eq_true_eq] at hfaithful
    omega
  | _ => cases hfaithful

end Number

end FormTree
