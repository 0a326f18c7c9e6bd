import FormTree.Proofs.Form.Legal
import FormTree.Proofs.Print.Chars
import FormTree.Proofs.Source.Quoted

/-!
# The texts of characters

After its backslash a character is written by its name, by its code, or as it is. In each of the
three ways it is a token that denotes it: names and codes have no character in them that ends a
token, and whatever stands right after the backslash is taken as it comes.
-/

namespace FormTree

open Text

/-- Whether characters are the token of a character literal that denotes `c`. -/
def IsTokenOf (c : Char) (text : List Char) : Prop :=
  Token.isCharToken text = true ∧ Scan.charForToken (String.ofList text) = .ok c

/-! ### Names -/

/-- The name of a character is one from the table. -/
theorem mem_charNames_of_nameForChar? {c : Char} {name : String} (h : nameForChar? c = some name) :
    (name, c) ∈ charNames := by
  obtain ⟨⟨name, d⟩, hfind, rfl⟩ := Option.map_eq_some_iff.1 h
  have hd : d = c := by simpa using List.find?_some hfind
  exact hd ▸ List.mem_of_find?_eq_some hfind

/-- A name is a token that denotes its character. -/
theorem isTokenOf_name {c : Char} {name : String} (h : (name, c) ∈ charNames) :
    IsTokenOf c name.toList := by
  have hall : ∀ entry ∈ charNames, Token.isCharToken entry.1.toList = true ∧
      2 ≤ entry.1.toList.length ∧ charForName? entry.1 = some entry.2 := by
    decide +kernel
  obtain ⟨htoken, hlength, hname⟩ := hall _ h
  refine ⟨htoken, ?_⟩
  rw [Scan.charForToken, String.toList_ofList, String.ofList_toList]
  split
  · rename_i heq
    rw [heq] at hlength
    exact absurd hlength (by simp)
  · rename_i heq
    rw [heq] at hlength
    exact absurd hlength (by simp)
  · rw [hname]

/-! ### Codes -/

theorem endsToken_hexDigit : ∀ n < 16, endsToken (hexDigit n) = false := by
  decide

/-- No name begins like a code. -/
theorem charForName?_code (digits : List Char) :
    charForName? (String.ofList ('u' :: digits)) = none := by
  rw [charForName?, List.lookup_eq_none_iff]
  intro entry hentry
  have hall : ∀ entry ∈ charNames, entry.1.toList.head? ≠ some 'u' := by
    decide +kernel
  rw [bne_iff_ne]
  intro heq
  exact hall entry hentry (by rw [← heq, String.toList_ofList]; rfl)

/-- A code of four capital hexadecimal digits is a token that denotes its character. -/
theorem isTokenOf_code {c : Char} (h : c.toNat < 0x10000) :
    IsTokenOf c ('u' :: hexCapital 4 c.toNat) := by
  obtain ⟨x, y, z, w, hx, hy, hz, hw, -, hcode⟩ := exists_hexCapital_four h
  have hnumeral := isNumeral_hexCapital h
  have hnumber := value_hexCapital h
  rw [hcode] at hnumeral hnumber ⊢
  constructor
  · simp [Token.isCharToken, endsToken_hexDigit, hx, hy, hz, hw]
  · rw [Scan.charForToken, String.toList_ofList]
    dsimp only
    rw [charForName?_code, hnumeral, hnumber, Scan.scalar?_toNat]
    rfl

/-! ### All characters -/

/-- What cannot be seen has a code of four digits. -/
theorem toNat_lt_of_isControl_or_isWhiteSpace {c : Char}
    (h : (isControl c || isWhiteSpace c) = true) : c.toNat < 0x10000 := by
  simp only [isControl, isWhiteSpace, Bool.or_eq_true, Bool.and_eq_true, decide_eq_true_eq,
    beq_iff_eq] at h
  omega

/-- Any single character is a token that denotes itself. -/
theorem isTokenOf_self (c : Char) : IsTokenOf c [c] := by
  refine ⟨rfl, ?_⟩
  rw [Scan.charForToken, String.toList_ofList]

/-- The text of a character is a backslash and a token that denotes it. -/
theorem exists_charText_eq (c : Char) :
    ∃ text, (charText c).toList = '\\' :: text ∧ IsTokenOf c text := by
  rw [charText, charParts]
  rcases hname : nameForChar? c with - | name
  · dsimp only
    split
    · exact ⟨_, by simp, isTokenOf_code (toNat_lt_of_isControl_or_isWhiteSpace ‹_›)⟩
    · exact ⟨_, by simp, isTokenOf_self c⟩
  · exact ⟨name.toList, by simp, isTokenOf_name (mem_charNames_of_nameForChar? hname)⟩

theorem Form.chars_char (c : Char) : (char c).chars = (charText c).toList := by
  simp [chars, pieces, Piece.spelling]

end FormTree
