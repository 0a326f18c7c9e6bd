import FormTree.Reader.Trigger

/-!
# Characters of ASCII

Digits and letters are characters of ASCII, so that what is said about them is decided by looking at
each.
-/

namespace FormTree

open Text

/-- What holds of all characters of ASCII is decided by looking at each. -/
theorem of_ascii {p : Char → Prop} (h : ∀ n < 128, p (Char.ofNat n)) {c : Char}
    (hc : c.toNat < 128) :
    p c :=
  Char.ofNat_toNat c ▸ h c.toNat hc

theorem toNat_lt_of_alphanumericValue? {d : Nat} {c : Char} (h : alphanumericValue? c = some d) :
    c.toNat < 128 := by
  have hle {b : Char} (hb : b.toNat < 128) {p : Prop} (hc : p ∧ c ≤ b) : c.toNat < 128 :=
    Nat.lt_of_le_of_lt (hc.2 : c.toNat ≤ b.toNat) hb
  rw [alphanumericValue?] at h
  simp only [Bool.and_eq_true, decide_eq_true_eq] at h
  split at h
  · rename_i hc
    exact hle (by decide) hc
  split at h
  · rename_i hc
    exact hle (by decide) hc
  split at h
  · rename_i hc
    exact hle (by decide) hc
  · cases h

/-- No digit ends a number, in any radix. -/
theorem endsNumber_of_digitValue? {radix d : Nat} {c : Char} (h : digitValue? radix c = some d) :
    endsNumber c = false := by
  obtain ⟨hc, -⟩ := Option.filter_eq_some_iff.1 h
  have hlt := toNat_lt_of_alphanumericValue? hc
  have hall : alphanumericValue? c ≠ none → endsNumber c = false :=
    of_ascii (p := fun c => alphanumericValue? c ≠ none → endsNumber c = false) (by decide) hlt
  exact hall (by simp [hc])

/-- No blank is a digit. -/
theorem isDigit_eq_false_of_isBlank {c : Char} (h : isBlank c = true) : isDigit c = false := by
  cases hdigit : isDigit c with
  | false => rfl
  | true =>
    have hle : '0' ≤ c ∧ c ≤ '9' := by simpa [isDigit] using hdigit
    have hlt : c.toNat < 128 := Nat.lt_of_le_of_lt (hle.2 : c.toNat ≤ '9'.toNat) (by decide)
    have hall : isDigit c = true → isBlank c = false :=
      of_ascii (p := fun c => isDigit c = true → isBlank c = false) (by decide) hlt
    rw [hall hdigit] at h
    cases h

end FormTree
