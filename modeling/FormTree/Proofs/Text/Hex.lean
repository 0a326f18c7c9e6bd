import FormTree.Number.Numeral
import FormTree.Proofs.Text.Ascii
import FormTree.Text.Quoted

/-!
# Hexadecimal codes

A code below `0x10000` is written with four hexadecimal digits, and they denote it.
-/

namespace FormTree.Text

variable {n : Nat}

/-- The hexadecimal digit of a value, a capital letter from ten on. -/
def hexDigit (n : Nat) : Char := (Nat.digitChar n).toUpper

/-- A hexadecimal digit has the value that it is written for. -/
theorem digitValue?_hexDigit : ∀ n < 16, digitValue? 16 (hexDigit n) = some n := by
  decide

/-- The last of several digits is the remainder, whether there are zeros before it or not. -/
theorem hex_succ {width : Nat} (hwidth : 0 < width) (n : Nat) :
    hex (width + 1) n = hex width (n / 16) ++ [Nat.digitChar (n % 16)] := by
  rw [hex, hex]
  rcases Nat.lt_or_ge n 16 with hn | hn
  · have hzeros : List.replicate (width - 1) '0' ++ ['0'] = List.replicate width '0' := by
      rw [← List.replicate_succ', Nat.sub_add_cancel hwidth]
    rw [Nat.toDigits_of_lt_base hn, Nat.div_eq_of_lt hn, Nat.mod_eq_of_lt hn, Nat.toDigits_zero]
    simp [hzeros]
  · rw [Nat.toDigits_of_base_le (by decide) hn]
    simp

/-- Four digits are those of the two bytes, the high ones first. -/
theorem hexCapital_four (h : n < 0x10000) :
    hexCapital 4 n =
      [hexDigit (n / 4096), hexDigit (n / 256 % 16), hexDigit (n / 16 % 16),
        hexDigit (n % 16)] := by
  have hone : hex 1 (n / 16 / 16 / 16) = [Nat.digitChar (n / 16 / 16 / 16)] := by
    rw [hex, Nat.toDigits_of_lt_base (by omega)]
    rfl
  rw [hexCapital, hex_succ (by decide), hex_succ (by decide), hex_succ (by decide), hone]
  simp only [Nat.div_div_eq_div_mul]
  rfl

/-- The digits of a code, and what they denote. -/
theorem exists_hexCapital_four (h : n < 0x10000) :
    ∃ a b c d, a < 16 ∧ b < 16 ∧ c < 16 ∧ d < 16 ∧ ((a * 16 + b) * 16 + c) * 16 + d = n ∧
      hexCapital 4 n = [hexDigit a, hexDigit b, hexDigit c, hexDigit d] :=
  ⟨n / 4096, n / 256 % 16, n / 16 % 16, n % 16, by omega, by omega, by omega, by omega, by omega,
    hexCapital_four h⟩

section

variable (h : n < 0x10000)
include h

/-- No more than four digits are needed below `0x10000`. -/
theorem length_hexCapital : (hexCapital 4 n).length = 4 := by
  rw [hexCapital_four h]
  rfl

theorem isNumeral_hexCapital : isNumeral 16 (hexCapital 4 n) = true := by
  obtain ⟨a, b, c, d, ha, hb, hc, hd, -, hcode⟩ := exists_hexCapital_four h
  simp [hcode, isNumeral, isDigitIn, digitValue?_hexDigit, ha, hb, hc, hd]

/-- The digits of a number have its value. -/
theorem value_hexCapital : Numeral.value 16 (hexCapital 4 n) = n := by
  obtain ⟨a, b, c, d, ha, hb, hc, hd, hvalue, hcode⟩ := exists_hexCapital_four h
  simpa [hcode, Numeral.value, Numeral.ofDigits, digitValue?_hexDigit, ha, hb, hc, hd] using hvalue

end

end FormTree.Text
