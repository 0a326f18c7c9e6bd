import FormTree.Proofs.Source.Body

/-!
# Printed strings

What is printed between the quotes of a string: fragments of the text, cut between two characters,
and escapes in place of the characters that may not stand there. Together they denote the text, and
scanning them up to the quote behind them gives the text back.
-/

namespace FormTree

/-- The character that an escape is written for. -/
def Escape.char : Escape → Char
  | .quote => '"'
  | .backslash => '\\'
  | .backspace => '\x08'
  | .formFeed => '\x0c'
  | .lineFeed => '\n'
  | .carriageReturn => '\r'
  | .tab => '\t'
  | .control code => Char.ofNat code

/-- The characters of a string that a piece is written for. -/
def Piece.denoted : Piece → List Char
  | .fragment text => text.toList
  | .escape e => [e.char]
  | _ => []

variable {c : Char} {e : Escape} {s : String} {p : Piece} {start stop : Nat}

/-- An escape is read as the character that it is chosen for. -/
theorem Escape.char_of_ofChar? (h : ofChar? c = some e) : e.char = c := by
  rcases eq_of_ofChar? h with h | ⟨-, rfl⟩
  · have hall : ∀ p ∈ oneLetter, p.2.char = p.1 := by decide
    exact hall _ h
  · exact Char.ofNat_toNat c

/-- The pieces of a string denote its text. -/
theorem flatMap_denoted_stringPieces (s : String) :
    (stringPieces s).flatMap Piece.denoted = s.toList := by
  have h := flatMap_stringPieces (f := Piece.denoted) (g := fun c => [c])
    (fun run _ => by rw [List.flatMap_singleton', Piece.denoted, String.toList_ofList])
    (fun c e hc => by rw [Piece.denoted, Escape.char_of_ofChar? hc]) s
  rwa [List.flatMap_singleton'] at h

/-- A slice is not empty, and begins and ends between two characters. -/
theorem isValid_of_slice (h : .slice start stop ∈ stringParts 0 0 s.toUTF8.toList) :
    start < stop ∧ String.Pos.Raw.IsValid s ⟨start⟩ ∧ String.Pos.Raw.IsValid s ⟨stop⟩ := by
  obtain ⟨front, run, behind, rfl, hne, -, rfl, rfl⟩ := exists_run_of_slice h
  have hpos : 0 < String.utf8Len run :=
    Nat.pos_of_ne_zero fun hzero => hne (String.utf8Len_eq_zero.1 hzero)
  refine ⟨Nat.lt_add_of_pos_right hpos, ?_, ?_⟩
  · refine String.Pos.Raw.isValid_iff_exists_append.2
      ⟨String.ofList front, String.ofList (run ++ behind), ?_, (String.rawEndPos_ofList front).symm⟩
    rw [← String.ofList_append, List.append_assoc]
  · refine String.Pos.Raw.isValid_iff_exists_append.2
      ⟨String.ofList (front ++ run), String.ofList behind, String.ofList_append, ?_⟩
    rw [String.rawEndPos_ofList, String.utf8Len_append]

namespace Scan

open Cursor

/-- **Strings are printed without loss.** A string is cut between two characters only. Its fragments
are not empty and have no character in them that may not stand in a string, and each escape is read
as the character that it is written for. Fragments and escapes denote the text, and scanning what is
printed gives the text back, up to the quote behind it. -/
theorem string_of_stringPieces (s : String) :
    (∀ start stop, .slice start stop ∈ stringParts 0 0 s.toUTF8.toList →
      start < stop ∧ String.Pos.Raw.IsValid s ⟨start⟩ ∧ String.Pos.Raw.IsValid s ⟨stop⟩) ∧
    (∀ p ∈ stringPieces s,
      (∃ e text, p = .escape e ∧ p.text? = some (String.ofList ('\\' :: text)) ∧
        ∀ rest k, k.At (text ++ rest) → ∃ k', escape k = .ok e.char k' ∧ k'.At rest) ∨
      ∃ text, p = .fragment text ∧ text ≠ "" ∧
        ∀ c ∈ text.toList, c ≠ '"' ∧ c ≠ '\\' ∧ 0x20 ≤ c.toNat ∧ c.toNat ≠ 0x7F) ∧
    (stringPieces s).flatMap Piece.denoted = s.toList ∧
    ∀ rest k, k.At (charsOf (stringPieces s) ++ '"' :: rest) →
      ∃ k', string k = .ok s k' ∧ k'.At rest := by
  refine ⟨fun start stop => isValid_of_slice, fun p hp => ?_, flatMap_denoted_stringPieces s,
    fun rest k hk => ?_⟩
  · rcases of_mem_stringPieces hp with ⟨c, e, rfl, hc⟩ | ⟨run, rfl, hne, hrun⟩
    · obtain ⟨text, htext, hescape⟩ := exists_isEscapeOf hc
      refine .inl ⟨e, text, rfl, ?_, fun rest k hk => ?_⟩
      · rw [Piece.text?_eq, ← htext, String.ofList_toList]
        rfl
      · obtain ⟨_, k', hrun, rfl, hk'⟩ := (hescape rest).triple_escape.exists_ok hk
        exact ⟨k', by rw [hrun, Escape.char_of_ofChar? hc], hk'⟩
    · refine .inr ⟨String.ofList run, rfl, by simpa using hne, fun c hc => ?_⟩
      rw [String.toList_ofList] at hc
      exact Escape.ofChar?_eq_none_iff.1 (hrun c hc)
  -- the pieces joined are what a quoted string has between its quotes
  · rw [charsOf_stringPieces] at hk
    obtain ⟨_, k', hrun, rfl, hk'⟩ := (triple_string s).exists_ok hk
    exact ⟨k', hrun, hk'⟩

/-- A quote and a line feed are escaped, and a character of two bytes is in a slice of three. -/
theorem string_of_stringPieces_two_bytes :
    stringParts 0 0 "\"é.\n".toUTF8.toList = [.escape .quote, .slice 1 4, .escape .lineFeed] ∧
    String.Pos.Raw.IsValid "\"é.\n" ⟨1⟩ ∧ String.Pos.Raw.IsValid "\"é.\n" ⟨4⟩ ∧
    (ofText "\\\"é.\\n\" x").At (charsOf (stringPieces "\"é.\n") ++ '"' :: [' ', 'x']) ∧
    ∃ k, string (ofText "\\\"é.\\n\" x") = .ok "\"é.\n" k ∧ k.At [' ', 'x'] := by
  obtain ⟨hslices, -, -, hstring⟩ := string_of_stringPieces "\"é.\n"
  have hparts : stringParts 0 0 "\"é.\n".toUTF8.toList =
      [.escape .quote, .slice 1 4, .escape .lineFeed] := by
    rw [Utf8.toList_toUTF8]
    decide
  have htext : (ofText "\\\"é.\\n\" x").At
      (charsOf (stringPieces "\"é.\n") ++ '"' :: [' ', 'x']) := by
    rw [charsOf_stringPieces]
    exact at_ofText _
  obtain ⟨-, hstart, hstop⟩ := hslices 1 4 (by rw [hparts]; decide)
  exact ⟨hparts, hstart, hstop, htext, hstring _ _ htext⟩

end Scan

end FormTree
