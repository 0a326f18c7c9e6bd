import FormTree.Proofs.Form.Legal

/-!
# Number tokens denote normal numbers

A ratio that is read is no integer, and the scale of a decimal that is read has 64 bits.
-/

namespace FormTree.Number

/-- An integer that fits 64 bits is made with fixed width. -/
theorem isNormal_ofInt (n : Int) : (ofInt n).IsNormal := by
  rw [ofInt]
  split <;> trivial

/-- Digits give an integer in the form for its size, or a big one where that is asked for. -/
theorem isNormal_of_ofDigits? {digits : String} {radix : Nat} {negate forceBig : Bool} {n : Number}
    (h : ofDigits? digits radix negate forceBig = some n) : n.IsNormal := by
  rw [ofDigits?] at h
  split at h
  · obtain ⟨m, -, rfl⟩ := Option.map_eq_some_iff.1 h
    dsimp only
    split
    · trivial
    · exact isNormal_ofInt _
  · cases h

/-- Quotients are in lowest terms, and integers where they can be. -/
theorem isNormal_of_ofRatio? {num den : Int} {n : Number} (h : ofRatio? num den = some n) :
    n.IsNormal := by
  rw [ofRatio?] at h
  split at h
  · cases h
  · dsimp only at h
    split at h <;> cases h
    · exact isNormal_ofInt _
    · assumption

theorem isNormal_of_ofParts? {whole fraction : List Char} {exponent : Int} {d : Decimal}
    (h : Decimal.ofParts? whole fraction exponent = some d) : (Number.decimal d).IsNormal := by
  obtain ⟨unscaled, -, h⟩ := Option.bind_eq_some_iff.1 h
  obtain ⟨hscale, hd⟩ := Option.ite_none_right_eq_some.1 h
  cases hd
  exact hscale

/-- The scale of a decimal that is read has 64 bits. -/
theorem isNormal_of_parse? {text : String} {d : Decimal} (h : Decimal.parse? text = some d) :
    (Number.decimal d).IsNormal := by
  obtain ⟨exponent, -, h⟩ := Option.bind_eq_some_iff.1 h
  exact isNormal_of_ofParts? h

/-- An integer with a radix of its own is normal. -/
theorem isNormal_of_radixInteger? {negate : Bool} {cs : List Char} {n : Number}
    (h : radixInteger? negate cs = some (some n)) : n.IsNormal := by
  rw [radixInteger?] at h
  split at h
  · cases h
  · split at h
    · exact isNormal_of_ofDigits? (Option.some.inj h)
    · cases h

/-- An integer token is normal, with the suffix of a big integer or without. -/
theorem isNormal_of_integerToken? {cs : List Char} {n : Number}
    (h : integerToken? cs = some (some n)) : n.IsNormal := by
  simp only [integerToken?] at h
  split at h
  · rename_i m hm
    cases h
    exact isNormal_of_radixInteger? hm
  · split at h
    · cases h
    · cases h
    · exact isNormal_of_ofDigits? (Option.some.inj h)

/-- Floating-point numbers are always normal, and decimals have a scale with 64 bits. -/
theorem isNormal_of_floatToken? {cs : List Char} {n : Number} (h : floatToken? cs = some n) :
    n.IsNormal := by
  simp only [floatToken?] at h
  split at h
  · obtain ⟨exponent, -, h⟩ := Option.bind_eq_some_iff.1 h
    split at h
    · obtain ⟨d, hd, rfl⟩ := Option.map_eq_some_iff.1 h
      exact isNormal_of_parse? hd
    · cases h
      trivial
  · cases h

/-- A ratio token is a quotient of integers. -/
theorem isNormal_of_ratioToken? {cs : List Char} {n : Number} (h : ratioToken? cs = some n) :
    n.IsNormal := by
  simp only [ratioToken?] at h
  split at h
  · cases h
  · split at h
    · exact isNormal_of_ofRatio? h
    · cases h

/-- What a number token denotes is normal. -/
theorem isNormal_of_ofToken? {token : String} {n : Number} (h : ofToken? token = some n) :
    n.IsNormal := by
  simp only [ofToken?] at h
  split at h
  · rename_i m hm
    subst h
    exact isNormal_of_integerToken? hm
  · rcases hf : floatToken? token.toList with - | m
    · rw [hf] at h
      exact isNormal_of_ratioToken? h
    · rw [hf] at h
      cases h
      exact isNormal_of_floatToken? hf

end FormTree.Number
