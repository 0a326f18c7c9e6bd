import Mathlib.Data.List.Basic

/-!
# Code units

A text is encoded by code units of sixteen bits: a character below `0x10000` by the unit that is its
code point, any other by a high and a low surrogate with ten bits each. Every list of units either
encodes a text or has, after the units of a text, a surrogate that is in no pair.
-/

namespace FormTree.Utf16

/-- The units of a character. -/
def encode (c : Char) : List UInt16 :=
  if c.toNat < 0x10000 then [.ofNat c.toNat]
  else
    [.ofNat (0xD800 + (c.toNat - 0x10000) / 0x400), .ofNat (0xDC00 + (c.toNat - 0x10000) % 0x400)]

/-- The units of a text. -/
def encodeText (text : String) : List UInt16 := text.toList.flatMap encode

/-- Whether a unit begins a pair. -/
def isHigh (unit : UInt16) : Bool := 0xD800 ≤ unit && unit ≤ 0xDBFF

/-- Whether a unit ends a pair. -/
def isLow (unit : UInt16) : Bool := 0xDC00 ≤ unit && unit ≤ 0xDFFF

/-- Whether a unit, with some units after it, is a surrogate that begins no pair. -/
def IsLone (unit : UInt16) (rest : List UInt16) : Prop :=
  isLow unit = true ∨ isHigh unit = true ∧ ∀ low ∈ rest.head?, isLow low = false

variable {unit high low : UInt16} {c : Char}

/-- A high surrogate is seen from its code. -/
theorem isHigh_iff : isHigh unit = true ↔ 0xD800 ≤ unit.toNat ∧ unit.toNat ≤ 0xDBFF := by
  simp [isHigh, UInt16.le_iff_toNat_le]

/-- A low surrogate is seen from its code. -/
theorem isLow_iff : isLow unit = true ↔ 0xDC00 ≤ unit.toNat ∧ unit.toNat ≤ 0xDFFF := by
  simp [isLow, UInt16.le_iff_toNat_le]

theorem toNat_ofNat_of_lt {n : Nat} (h : n < 0x10000) : (UInt16.ofNat n).toNat = n := by
  rw [UInt16.toNat_ofNat']
  omega

/-- What has the range of a character is the code point of one. -/
theorem exists_toNat_eq {n : Nat} (h : n.isValidChar) : ∃ c : Char, c.toNat = n :=
  ⟨Char.ofNatAux n h, rfl⟩

/-! ### The units of a character -/

/-- A unit that is no surrogate is a character. -/
theorem exists_encode_eq (hhigh : isHigh unit = false) (hlow : isLow unit = false) :
    ∃ c, encode c = [unit] ∧ c.toNat = unit.toNat := by
  rw [← Bool.not_eq_true, isHigh_iff] at hhigh
  rw [← Bool.not_eq_true, isLow_iff] at hlow
  have hlt : unit.toNat < 0x10000 := unit.toNat_lt
  obtain ⟨c, hc⟩ := exists_toNat_eq (n := unit.toNat) (by rw [Nat.isValidChar]; omega)
  refine ⟨c, ?_, hc⟩
  rw [encode, if_pos (by omega), hc, UInt16.ofNat_toNat]

/-- A high and a low surrogate are a character. -/
theorem exists_encode_eq_pair (hhigh : isHigh high = true) (hlow : isLow low = true) :
    ∃ c, encode c = [high, low] ∧
      c.toNat = 0x10000 + (high.toNat - 0xD800) * 0x400 + (low.toNat - 0xDC00) := by
  rw [isHigh_iff] at hhigh
  rw [isLow_iff] at hlow
  obtain ⟨c, hc⟩ :=
    exists_toNat_eq (n := 0x10000 + (high.toNat - 0xD800) * 0x400 + (low.toNat - 0xDC00))
      (by rw [Nat.isValidChar]; omega)
  have hdiv : 0xD800 + (c.toNat - 0x10000) / 0x400 = high.toNat := by omega
  have hmod : 0xDC00 + (c.toNat - 0x10000) % 0x400 = low.toNat := by omega
  refine ⟨c, ?_, hc⟩
  rw [encode, if_neg (by omega), hdiv, hmod, UInt16.ofNat_toNat, UInt16.ofNat_toNat]

/-- How a character is encoded: by itself, or by a pair. -/
inductive IsEncoded (c : Char) : List UInt16 → Prop
  | single {unit : UInt16} (hhigh : isHigh unit = false) (hlow : isLow unit = false)
      (h : unit.toNat = c.toNat) : IsEncoded c [unit]
  | pair {high low : UInt16} (hhigh : isHigh high = true) (hlow : isLow low = true)
      (h : 0x10000 + (high.toNat - 0xD800) * 0x400 + (low.toNat - 0xDC00) = c.toNat) :
      IsEncoded c [high, low]

/-- A character is one unit of its own, or a pair of surrogates. -/
theorem isEncoded_encode (c : Char) : IsEncoded c (encode c) := by
  have hvalid : c.toNat < 0xD800 ∨ 0xDFFF < c.toNat ∧ c.toNat < 0x110000 := c.valid
  rw [encode]
  split
  · have hunit : (UInt16.ofNat c.toNat).toNat = c.toNat := toNat_ofNat_of_lt ‹_›
    refine .single ?_ ?_ hunit
    · rw [← Bool.not_eq_true, isHigh_iff, hunit]
      omega
    · rw [← Bool.not_eq_true, isLow_iff, hunit]
      omega
  · have hhigh := toNat_ofNat_of_lt (n := 0xD800 + (c.toNat - 0x10000) / 0x400) (by omega)
    have hlow := toNat_ofNat_of_lt (n := 0xDC00 + (c.toNat - 0x10000) % 0x400) (by omega)
    refine .pair ?_ ?_ ?_
    · rw [isHigh_iff, hhigh]
      omega
    · rw [isLow_iff, hlow]
      omega
    · rw [hhigh, hlow]
      omega

/-! ### The units of a text -/

/-- Whether units encode a text up to where they end or a surrogate is in no pair. -/
def IsResolved (units : List UInt16) : Prop :=
  ∃ (cs : List Char) (rest : List UInt16), units = cs.flatMap encode ++ rest ∧
    ∀ unit tail, rest = unit :: tail → IsLone unit tail

/-- A character in front does not change whether units end in a lone surrogate or in none. -/
theorem IsResolved.append {rest : List UInt16} (h : IsResolved rest) (c : Char) :
    IsResolved (encode c ++ rest) := by
  obtain ⟨cs, rest, rfl, hrest⟩ := h
  exact ⟨c :: cs, rest, by rw [List.flatMap_cons, List.append_assoc], hrest⟩

theorem IsLone.isResolved {rest : List UInt16} (h : IsLone unit rest) :
    IsResolved (unit :: rest) := by
  refine ⟨[], unit :: rest, rfl, ?_⟩
  rintro _ _ ⟨⟩
  exact h

/-- All units are resolved. -/
theorem isResolved (units : List UInt16) : IsResolved units := by
  -- a pair takes two units, so that the induction is on how many there are
  induction hlength : units.length using Nat.strongRecOn generalizing units with
  | ind n ih =>
    subst hlength
    rcases units with - | ⟨unit, rest⟩
    · exact ⟨[], [], rfl, by simp⟩
    rcases hlow : isLow unit with - | -
    · rcases hhigh : isHigh unit with - | -
      · obtain ⟨c, hc, -⟩ := exists_encode_eq hhigh hlow
        have hrest : IsResolved rest := ih rest.length (Nat.lt_succ_self _) rest rfl
        have happend := hrest.append c
        rwa [hc] at happend
      · rcases rest with - | ⟨low, rest⟩
        · exact IsLone.isResolved (.inr ⟨hhigh, by simp⟩)
        · rcases hpair : isLow low with - | -
          · exact IsLone.isResolved (.inr ⟨hhigh, by simpa using hpair⟩)
          · obtain ⟨c, hc, -⟩ := exists_encode_eq_pair hhigh hpair
            have hrest : IsResolved rest :=
                ih rest.length (Nat.lt_add_of_pos_right Nat.two_pos) rest rfl
            have happend := hrest.append c
            rwa [hc] at happend
    · exact IsLone.isResolved (.inl hlow)

/-- No text begins with a surrogate that is in no pair. -/
theorem encodeText_ne_of_isLone {rest : List UInt16} (h : IsLone unit rest) (text : String) :
    encodeText text ≠ unit :: rest := by
  rw [encodeText]
  rcases text.toList with - | ⟨c, cs⟩
  · exact (List.cons_ne_nil unit rest).symm
  · rw [List.flatMap_cons]
    have hencoded := isEncoded_encode c
    generalize encode c = units at hencoded
    intro heq
    cases hencoded with
    | single hhigh hlow =>
      cases heq
      simp [IsLone, hhigh, hlow] at h
    | pair hhigh hlow =>
      cases heq
      have hnot : isLow unit = false := by
        rw [isHigh_iff] at hhigh
        rw [← Bool.not_eq_true, isLow_iff]
        omega
      simp [IsLone, hnot, hlow] at h

end FormTree.Utf16
