import FormTree.Proofs.Number.Normal
import FormTree.Proofs.Number.Text

/-!
# Decimals at the limits of 64 bits

The scale of a decimal has 64 bits, but the exponent in its text is greater than its scale by the
number of its digits, and may need more. Then the decimal has no text. Every other decimal is read
back from its text.
-/

namespace FormTree.Decimal

open Numeral

-- Powers are the core library's here, also below a library with another instance of them.
attribute [local instance (high)] instPowNat

variable {d : Decimal}

/-- The exponent of a decimal is never less than zero, so that only the upper limit matters. -/
theorem overflows_iff : d.overflows = true ↔ d.scale < 0 ∧ 2 ^ (63 : Nat) ≤ d.textExponent := by
  rw [overflows, Bool.and_eq_true, decide_eq_true_eq]
  refine and_congr_right fun hscale => ?_
  have hpos : 0 ≤ d.textExponent := textExponent_nonneg hscale
  rw [Bool.not_eq_true', Bool.eq_false_iff, Ne, fitsInt64, Bool.and_eq_true, decide_eq_true_eq,
    decide_eq_true_eq]
  omega

/-- A decimal that has been read is read back from its text if and only if the exponent in the text
does not overflow, which it does from `2 ^ 63` on. Where it overflows there is no text. -/
theorem exists_parse?_toText?_iff {text : String} (h : parse? text = some d) :
    ((∃ shown, d.toText? = some shown ∧ parse? shown = some d) ↔ d.overflows = false) ∧
      (d.overflows = true ↔ d.scale < 0 ∧ 2 ^ (63 : Nat) ≤ d.textExponent) ∧
      (d.toText? = none ↔ d.overflows = true) := by
  have hscale : fitsInt64 d.scale = true := Number.isNormal_of_parse? h
  have hread := parse?_spelling_iff hscale
  refine ⟨?_, overflows_iff, ?_⟩ <;> rw [d.toText?_eq]
  · rw [← hread]
    constructor
    · rintro ⟨shown, hshown, hparse⟩
      obtain ⟨-, hspelling⟩ := Option.ite_none_left_eq_some.1 hshown
      rwa [Option.some_inj.1 hspelling]
    · intro hparse
      exact ⟨d.spelling, by rw [hread.1 hparse]; rfl, hparse⟩
  · exact ite_eq_left_iff.trans (by simp)

/-- With two digits the exponent of the text is one more than that which was read, which is the
greatest one here. -/
theorem toText?_overflows_ten :
    parse? "10e9223372036854775807" = some ⟨10, -9223372036854775807⟩ ∧
      toText? ⟨10, -9223372036854775807⟩ = none ∧
      ¬ ∃ shown, toText? ⟨10, -9223372036854775807⟩ = some shown ∧
        parse? shown = some ⟨10, -9223372036854775807⟩ := by
  have hread : parse? "10e9223372036854775807" = some ⟨10, -9223372036854775807⟩ := by
    decide +kernel
  obtain ⟨hback, hoverflows, hnone⟩ := exists_parse?_toText?_iff hread
  have h : overflows ⟨10, -9223372036854775807⟩ = true := hoverflows.2 (by decide)
  refine ⟨hread, hnone.2 h, fun hshown => ?_⟩
  rw [hback.1 hshown] at h
  cases h

end FormTree.Decimal
