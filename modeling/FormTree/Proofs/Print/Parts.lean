import FormTree.Print.Form
import FormTree.Proofs.Text.Ascii
import FormTree.Proofs.Text.Utf8
import Mathlib.Data.String.Basic

/-!
# The parts of a string

A string is written byte by byte, although its text consists of characters. No byte of a character
outside of ASCII is escaped, so that the bytes between two escapes are those of a run of characters.
`Covers` says which characters the parts of a string are written for, and everything about the
pieces of a string follows from it.
-/

namespace FormTree

open String (utf8Len)

variable {b : UInt8} {c : Char} {bytes more : List UInt8} {start stop i : Nat}

/-! ### Escaped bytes -/

namespace Escape

variable {e : Escape}

/-- The escapes of one letter, and what they are written for. -/
def oneLetter : List (Char × Escape) :=
  [('"', quote), ('\\', backslash), ('\x08', backspace), ('\x0c', formFeed), ('\n', lineFeed),
    ('\r', carriageReturn), ('\t', tab)]

/-- Escapes are one letter or a code, and codes are for characters of ASCII only. -/
theorem eq_of_ofChar? (h : ofChar? c = some e) :
    (c, e) ∈ oneLetter ∨ c.toNat < 128 ∧ e = control c.toNat := by
  unfold ofChar? at h
  simp only [beq_iff_eq] at h
  repeat' split at h
  all_goals cases h
  all_goals rename_i hc
  all_goals try (subst hc; exact .inl (by decide))
  simp only [Bool.or_eq_true, decide_eq_true_eq, beq_iff_eq] at hc
  exact .inr ⟨by omega, rfl⟩

theorem toNat_lt_of_ofChar? (h : ofChar? c = some e) : c.toNat < 128 := by
  rcases eq_of_ofChar? h with h | ⟨hc, -⟩
  · have hall : ∀ p ∈ oneLetter, p.1.toNat < 128 := by decide
    exact hall _ h
  · exact hc

/-- What is not escaped: all but quotes, backslashes and the control characters of ASCII. -/
theorem ofChar?_eq_none_iff :
    ofChar? c = none ↔ c ≠ '"' ∧ c ≠ '\\' ∧ 0x20 ≤ c.toNat ∧ c.toNat ≠ 0x7F := by
  by_cases hc : c.toNat < 128
  · exact of_ascii (p := fun c =>
      ofChar? c = none ↔ c ≠ '"' ∧ c ≠ '\\' ∧ 0x20 ≤ c.toNat ∧ c.toNat ≠ 0x7F) (by decide) hc
  · have hnone : ofChar? c = none :=
      Option.eq_none_iff_forall_ne_some.2 fun e he => hc (toNat_lt_of_ofChar? he)
    have hne {d : Char} (hd : d.toNat < 128) : c ≠ d := by
      rintro rfl
      exact hc hd
    exact ⟨fun _ => ⟨hne (by decide), hne (by decide), by omega, by omega⟩, fun _ => hnone⟩

/-- In ASCII, looking at bytes is looking at characters. -/
theorem ofByte?_ofNat (hc : c.toNat < 128) : ofByte? (UInt8.ofNat c.toNat) = ofChar? c := by
  refine congrArg ofChar? (Char.toNat_inj.1 ?_)
  have hb : (Char.ofUInt8 (UInt8.ofNat c.toNat)).toNat = (UInt8.ofNat c.toNat).toNat :=
    UInt8.toNat_toUInt32 _
  rw [hb, Utf8.toNat_ofNat_of_lt (by omega)]

/-- No byte of a longer character is escaped. -/
theorem ofByte?_eq_none (hb : 128 ≤ b.toNat) : ofByte? b = none := by
  refine Option.eq_none_iff_forall_ne_some.2 fun e he => ?_
  have hlt : b.toNat < 128 := UInt8.toNat_toUInt32 b ▸ toNat_lt_of_ofChar? he
  omega

/-- A character that is escaped is one byte, and that byte is escaped. -/
theorem utf8EncodeChar_of_ofChar? (h : ofChar? c = some e) :
    ∃ b, String.utf8EncodeChar c = [b] ∧ ofByte? b = some e := by
  have hc := toNat_lt_of_ofChar? h
  refine ⟨UInt8.ofNat c.toNat, ?_, (ofByte?_ofNat hc).trans h⟩
  rw [Utf8.utf8EncodeChar_eq, if_pos (by omega)]

/-- No byte of another character is escaped. -/
theorem ofByte?_of_mem (h : ofChar? c = none) (hb : b ∈ String.utf8EncodeChar c) :
    ofByte? b = none := by
  rw [Utf8.utf8EncodeChar_eq] at hb
  split at hb
  · obtain rfl := List.mem_singleton.1 hb
    exact (ofByte?_ofNat (by omega)).trans h
  · refine ofByte?_eq_none ?_
    -- the bytes of a sequence of two or more have their highest bit set
    have hle {n : Nat} (hn : n < 256) (hle : 128 ≤ n) : 128 ≤ (UInt8.ofNat n).toNat := by
      rwa [Utf8.toNat_ofNat_of_lt hn]
    split at hb
    · simp only [List.mem_cons, List.not_mem_nil, or_false] at hb
      rcases hb with rfl | rfl
      all_goals exact hle (by omega) (by omega)
    split at hb
    · simp only [List.mem_cons, List.not_mem_nil, or_false] at hb
      rcases hb with rfl | rfl | rfl
      all_goals exact hle (by omega) (by omega)
    · simp only [List.mem_cons, List.not_mem_nil, or_false] at hb
      rcases hb with rfl | rfl | rfl | rfl
      all_goals exact hle (by omega) (by omega)

end Escape

/-! ### Characters that parts are written for -/

/-- Whether all characters of a run stand for themselves. -/
def Unescaped (run : List Char) : Prop := ∀ c ∈ run, Escape.ofChar? c = none

/-- Whether parts of a string are written for these characters, behind the characters `before`. -/
inductive Covers : List Char → List StringPart → List Char → Prop
  | nil (before : List Char) : Covers before [] []
  | slice {before run cs : List Char} {parts : List StringPart} (hne : run ≠ [])
      (hrun : Unescaped run) (h : Covers (before ++ run) parts cs) :
      Covers before (.slice (utf8Len before) (utf8Len before + utf8Len run) :: parts) (run ++ cs)
  | escape {before cs : List Char} {parts : List StringPart} {c : Char} {e : Escape}
      (hc : Escape.ofChar? c = some e) (h : Covers (before ++ [c]) parts cs) :
      Covers before (.escape e :: parts) (c :: cs)

variable {before run cs : List Char} {parts : List StringPart}

theorem unescaped_nil : Unescaped [] := List.forall_mem_nil _

/-- Bytes that are not escaped are left for later. -/
theorem stringParts_append (h : ∀ b ∈ bytes, Escape.ofByte? b = none) :
    stringParts start i (bytes ++ more) = stringParts start (i + bytes.length) more := by
  induction bytes generalizing i with
  | nil => rfl
  | cons b bytes ih =>
    obtain ⟨hb, hbytes⟩ := List.forall_mem_cons.1 h
    rw [List.cons_append, stringParts, hb, List.length_cons, Nat.add_comm bytes.length,
      ← Nat.add_assoc]
    exact ih hbytes

/-- What was left for later is written in front of other parts, if there is something. -/
theorem Covers.pending (hrun : Unescaped run) (h : Covers (before ++ run) parts cs) :
    Covers before ((if utf8Len before < utf8Len before + utf8Len run then
      [.slice (utf8Len before) (utf8Len before + utf8Len run)] else []) ++ parts) (run ++ cs) := by
  rcases run with - | ⟨c, run⟩
  · rw [List.append_nil] at h
    rwa [String.utf8Len_nil, Nat.add_zero, if_neg (Nat.lt_irrefl _)]
  · have hpos : 0 < utf8Len (c :: run) := by
      rw [String.utf8Len_cons]
      exact Nat.add_pos_right _ c.utf8Size_pos
    rw [if_pos (Nat.lt_add_of_pos_right hpos)]
    exact .slice (List.cons_ne_nil c run) hrun h

/-- The parts of the bytes of characters are written for these, behind a run that is pending. -/
theorem covers_stringParts (before : List Char) (hrun : Unescaped run) (cs : List Char) :
    Covers before (stringParts (utf8Len before) (utf8Len before + utf8Len run)
      (cs.flatMap String.utf8EncodeChar)) (run ++ cs) := by
  -- the run grows by a character that stands for itself, and is written at an escape or at the end
  induction cs generalizing before run with
  | nil =>
    have h := Covers.pending hrun (.nil (before ++ run))
    rw [List.append_nil] at h
    have hparts : stringParts (utf8Len before) (utf8Len before + utf8Len run) [] =
        if utf8Len before < utf8Len before + utf8Len run then
          [.slice (utf8Len before) (utf8Len before + utf8Len run)] else [] := by
      rw [stringParts]
      refine if_congr ?_ rfl rfl
      rw [bne_iff_ne]
      omega
    rwa [List.flatMap_nil, hparts]
  | cons c cs ih =>
    rw [List.flatMap_cons]
    rcases hc : Escape.ofChar? c with - | e
    · have hrun' : Unescaped (run ++ [c]) :=
        List.forall_mem_append.2 ⟨hrun, List.forall_mem_singleton.2 hc⟩
      have h := ih before hrun'
      rw [String.utf8Len_append, String.utf8Len_cons, String.utf8Len_nil, Nat.zero_add,
        ← Nat.add_assoc, List.append_assoc] at h
      rw [stringParts_append fun b hb => Escape.ofByte?_of_mem hc hb, String.length_utf8EncodeChar]
      exact h
    · obtain ⟨b, hb, hescape⟩ := Escape.utf8EncodeChar_of_ofChar? hc
      have hsize : c.utf8Size = 1 := by rw [← String.length_utf8EncodeChar, hb]; rfl
      have h := ih (before ++ run ++ [c]) unescaped_nil
      rw [String.utf8Len_append, String.utf8Len_append, String.utf8Len_cons, String.utf8Len_nil,
        hsize] at h
      rw [hb, List.singleton_append, stringParts, hescape]
      exact Covers.pending hrun (.escape hc h)

/-- The parts of a string cover it. -/
theorem covers_string (s : String) : Covers [] (stringParts 0 0 s.toUTF8.toList) s.toList := by
  rw [Utf8.toList_toUTF8]
  exact covers_stringParts [] unescaped_nil s.toList

/-! ### Slices and pieces -/

/-- A slice has the bytes of a run of characters. -/
theorem Covers.exists_run (h : Covers before parts cs) (hmem : .slice start stop ∈ parts) :
    ∃ front run behind, before ++ cs = front ++ run ++ behind ∧ run ≠ [] ∧ Unescaped run ∧
      start = utf8Len front ∧ stop = utf8Len front + utf8Len run := by
  induction h with
  | nil => cases hmem
  | @slice before run cs parts hne hrun _ ih =>
    rcases List.mem_cons.1 hmem with heq | hmem
    · cases heq
      exact ⟨before, run, cs, (List.append_assoc ..).symm, hne, hrun, rfl, rfl⟩
    · obtain ⟨front, run', behind, heq, h⟩ := ih hmem
      exact ⟨front, run', behind, by rw [← heq, List.append_assoc], h⟩
  | @escape before cs parts c e hc _ ih =>
    rcases List.mem_cons.1 hmem with heq | hmem
    · cases heq
    · obtain ⟨front, run, behind, heq, h⟩ := ih hmem
      exact ⟨front, run, behind, by rw [← heq, List.append_assoc]; rfl, h⟩

/-- A slice is a run of characters that stand for themselves, and its ends are boundaries. -/
theorem exists_run_of_slice {s : String} (h : .slice start stop ∈ stringParts 0 0 s.toUTF8.toList) :
    ∃ front run behind, s = String.ofList (front ++ run ++ behind) ∧ run ≠ [] ∧ Unescaped run ∧
      start = utf8Len front ∧ stop = utf8Len front + utf8Len run := by
  obtain ⟨front, run, behind, hs, h⟩ := (covers_string s).exists_run h
  exact ⟨front, run, behind, by rw [← hs, List.nil_append, String.ofList_toList], h⟩

/-- Every escape is written for a character. -/
theorem Covers.exists_char {e : Escape} (h : Covers before parts cs) (hmem : .escape e ∈ parts) :
    ∃ c, Escape.ofChar? c = some e := by
  induction h with
  | nil => cases hmem
  | slice _ _ _ ih =>
    rcases List.mem_cons.1 hmem with heq | hmem
    · cases heq
    · exact ih hmem
  | escape hc _ ih =>
    rcases List.mem_cons.1 hmem with heq | hmem
    · cases heq
      exact ⟨_, hc⟩
    · exact ih hmem

/-- The pieces of a string are escapes of characters, and fragments of characters that stand for
themselves. -/
theorem of_mem_stringPieces {s : String} {p : Piece} (h : p ∈ stringPieces s) :
    (∃ c e, p = .escape e ∧ Escape.ofChar? c = some e) ∨
      ∃ run, p = .fragment (String.ofList run) ∧ run ≠ [] ∧ Unescaped run := by
  obtain ⟨part, hpart, rfl⟩ := List.mem_map.1 h
  cases part with
  | escape e =>
    obtain ⟨c, hc⟩ := (covers_string s).exists_char hpart
    exact .inl ⟨c, e, rfl, hc⟩
  | slice start stop =>
    obtain ⟨front, run, behind, rfl, hne, hrun, rfl, rfl⟩ := exists_run_of_slice hpart
    exact .inr ⟨run, congrArg _ (String.extract_of_valid front run behind), hne, hrun⟩

/-- What the pieces of a string come to, character by character. -/
theorem Covers.flatMap_eq {α : Type} {f : Piece → List α} {g : Char → List α}
    (hfragment : ∀ run, Unescaped run → f (.fragment (String.ofList run)) = run.flatMap g)
    (hescape : ∀ c e, Escape.ofChar? c = some e → f (.escape e) = g c)
    (h : Covers before parts cs) :
    (parts.map (StringPart.piece (String.ofList (before ++ cs)))).flatMap f = cs.flatMap g := by
  induction h with
  | nil => rfl
  | @slice before run cs parts _ hrun _ ih =>
    have hpiece := String.extract_of_valid before run cs
    rw [List.append_assoc] at hpiece ih
    rw [List.map_cons, List.flatMap_cons, ih, StringPart.piece, hpiece, hfragment run hrun,
      List.flatMap_append]
  | @escape before cs parts c e hc _ ih =>
    rw [List.append_assoc] at ih
    rw [List.map_cons, List.flatMap_cons, StringPart.piece, hescape c e hc, List.flatMap_cons]
    exact congrArg _ ih

theorem flatMap_stringPieces {α : Type} {f : Piece → List α} {g : Char → List α}
    (hfragment : ∀ run, Unescaped run → f (.fragment (String.ofList run)) = run.flatMap g)
    (hescape : ∀ c e, Escape.ofChar? c = some e → f (.escape e) = g c) (s : String) :
    (stringPieces s).flatMap f = s.toList.flatMap g := by
  have h := (covers_string s).flatMap_eq hfragment hescape
  rwa [List.nil_append, String.ofList_toList] at h

end FormTree
