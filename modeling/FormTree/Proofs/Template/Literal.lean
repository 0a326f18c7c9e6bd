import FormTree.Proofs.Number.Digits
import FormTree.Proofs.Source.Quoted
import FormTree.Template.Value

/-!
# String literals of program code

The text that a string literal denotes. Between its quotes every character stands for itself but
quotes, backslashes and carriage returns, and a backslash begins an escape: a letter, a code of two
hexadecimal digits in the range of ASCII, a code point of up to six in braces, or a line break,
which is left out with the white space after it.

A text has a literal without escapes if all of its characters stand for themselves; `quoteInCode`
gives every text one.
-/

namespace FormTree.Template.Literal

open Text

/-- Whether a character stands for itself in a literal. -/
def isVerbatim (c : Char) : Bool :=
  c != '"' && c != '\\' && c != '\r'

/-- The character with a code of two digits, in the range of ASCII. -/
def ascii? (high low : Char) : Option Char :=
  if isNumeral 16 [high, low] && Numeral.value 16 [high, low] < 0x80 then
    some (Char.ofNat (Numeral.value 16 [high, low]))
  else none

/-- The character with a code point of one to six digits. Underscores may stand after the first
digit. -/
def codePoint? (cs : List Char) : Option Char :=
  let digits := cs.filter (· != '_')
  if cs.head? != some '_' && isNumeral 16 digits && digits.length ≤ 6 then
    Scan.scalar? (Numeral.value 16 digits)
  else none

/-- Whether a line break that is left out takes `c` with it. -/
def isContinued (c : Char) : Bool :=
  c == ' ' || c == '\t' || c == '\n' || c == '\r'

/-- What a backslash and the characters after it denote, and the characters behind the escape. -/
def escape? : List Char → Option (List Char × List Char)
  | '"' :: rest => some (['"'], rest)
  | '\'' :: rest => some (['\''], rest)
  | '\\' :: rest => some (['\\'], rest)
  | '0' :: rest => some (['\x00'], rest)
  | 't' :: rest => some (['\t'], rest)
  | 'n' :: rest => some (['\n'], rest)
  | 'r' :: rest => some (['\r'], rest)
  | 'x' :: high :: low :: rest => (ascii? high low).map fun c => ([c], rest)
  | 'u' :: '\x7b' :: rest =>
    match rest.dropWhile (· != '\x7d') with
    | [] => none
    | _ :: behind => (codePoint? (rest.takeWhile (· != '\x7d'))).map fun c => ([c], behind)
  | '\n' :: rest => some ([], rest.dropWhile isContinued)
  | _ => none

/-- An escape denotes no more characters than there are behind its backslash. -/
theorem length_add_length_le_of_escape? {cs out rest : List Char}
    (h : escape? cs = some (out, rest)) : out.length + rest.length ≤ cs.length := by
  unfold escape? at h
  split at h
  case h_8 =>
    obtain ⟨c, -, hc⟩ := Option.map_eq_some_iff.1 h
    cases hc
    simp only [List.length_cons, List.length_nil]
    omega
  -- a code point in braces: what is dropped up to the brace is at least as long
  case h_9 inside =>
    split at h
    · cases h
    · rename_i close behind hbehind
      obtain ⟨c, -, hc⟩ := Option.map_eq_some_iff.1 h
      cases hc
      have hle := (List.dropWhile_sublist (· != '\x7d') (l := inside)).length_le
      rw [hbehind] at hle
      simp only [List.length_cons, List.length_nil] at hle ⊢
      omega
  -- a line break: the white space behind it is dropped
  case h_10 behind =>
    cases h
    have hle := (List.dropWhile_sublist isContinued (l := behind)).length_le
    simp only [List.length_cons, List.length_nil]
    omega
  case h_11 => cases h
  all_goals
    cases h
    simp only [List.length_cons, List.length_nil]
    omega

/-- An escape leaves no more than there was, so that reading a body ends. -/
theorem length_escape?_le {cs out rest : List Char} (h : escape? cs = some (out, rest)) :
    rest.length ≤ cs.length :=
  Nat.le_trans (Nat.le_add_left _ _) (length_add_length_le_of_escape? h)

/-- The characters that stand between the quotes of a literal. -/
def body? : List Char → Option (List Char)
  | [] => some []
  | '\\' :: cs =>
    match _h : escape? cs with
    | none => none
    | some (out, rest) => (body? rest).map (out ++ ·)
  | c :: cs => if isVerbatim c then (body? cs).map (c :: ·) else none
termination_by cs => cs.length
decreasing_by
  · exact Nat.lt_succ_of_le (length_escape?_le _h)
  · exact Nat.lt_succ_self _

/-- The text that a string literal denotes. -/
def string? (literal : String) : Option String :=
  match literal.toList with
  | '"' :: rest =>
    if rest.getLast? == some '"' then (body? rest.dropLast).map String.ofList else none
  | _ => none

/-- The literal without escapes. -/
def verbatim (text : String) : String := String.ofList ('"' :: (text.toList ++ ['"']))

variable {c : Char} {cs rest : List Char}

/-! ### Bodies -/

theorem body?_nil : body? [] = some [] := by
  rw [body?]

/-- A character that needs no escape stands for itself. -/
theorem body?_cons (hc : isVerbatim c = true) : body? (c :: cs) = (body? cs).map (c :: ·) := by
  rw [body?, if_pos hc]
  rintro rfl
  cases hc

/-- An escape stands for what it denotes. -/
theorem body?_escape {out : List Char} (h : escape? cs = some (out, rest)) :
    body? ('\\' :: cs) = (body? rest).map (out ++ ·) := by
  rw [body?]
  split
  · rename_i hnone
    rw [h] at hnone
    cases hnone
  · rename_i hsome
    rw [h] at hsome
    cases hsome
    rfl

/-- The body of a literal without escapes is the text. -/
theorem body?_of_all (h : cs.all isVerbatim = true) : body? cs = some cs := by
  induction cs with
  | nil => exact body?_nil
  | cons c cs ih =>
    obtain ⟨hc, hcs⟩ := Bool.and_eq_true_iff.1 h
    rw [body?_cons hc, ih hcs, Option.map_some]

/-- What stands between quotes is the body. -/
theorem string?_ofList (cs : List Char) :
    string? (String.ofList ('"' :: (cs ++ ['"']))) = (body? cs).map String.ofList := by
  rw [string?, String.toList_ofList]
  simp

/-- A literal without escapes denotes the text in it. -/
theorem string?_verbatim {text : String} (h : text.toList.all isVerbatim = true) :
    string? (verbatim text) = some text := by
  rw [verbatim, string?_ofList, body?_of_all h, Option.map_some, String.ofList_toList]

/-- The text between the quotes of a literal without escapes is what it denotes. -/
theorem stringText?_verbatim (text : String) : stringText? (verbatim text) = .ok text := by
  rw [stringText?, verbatim, String.toList_ofList]
  simp

/-! ### Literals with escapes -/

/-- A literal denotes no more characters than it has between its quotes, and fewer if one of them is
a backslash. -/
theorem length_of_body? {ds : List Char} (h : body? cs = some ds) :
    ds.length ≤ cs.length ∧ ('\\' ∈ cs → ds.length < cs.length) := by
  fun_induction body? cs generalizing ds with
  | case1 =>
    cases h
    exact ⟨Nat.le_refl _, fun h => by cases h⟩
  | case2 => cases h
  | case3 cs out rest hescape ih =>
    obtain ⟨es, hes, rfl⟩ := Option.map_eq_some_iff.1 h
    have hle := length_add_length_le_of_escape? hescape
    have hrest := (ih hes).1
    simp only [List.length_append, List.length_cons]
    exact ⟨by omega, fun _ => by omega⟩
  | case4 c cs hc hverbatim ih =>
    obtain ⟨es, hes, rfl⟩ := Option.map_eq_some_iff.1 h
    obtain ⟨hle, hlt⟩ := ih hes
    refine ⟨Nat.succ_le_succ hle, fun hmem => ?_⟩
    rcases List.mem_cons.1 hmem with rfl | hmem
    · cases hverbatim
    · exact Nat.succ_lt_succ (hlt hmem)
  | case5 => cases h

/-- Without a backslash a body denotes itself. -/
theorem eq_of_body? {ds : List Char} (hcs : '\\' ∉ cs) (h : body? cs = some ds) : ds = cs := by
  fun_induction body? cs generalizing ds with
  | case1 =>
    cases h
    rfl
  | case2 => cases h
  | case3 => exact absurd List.mem_cons_self hcs
  | case4 c cs _ _ ih =>
    obtain ⟨es, hes, rfl⟩ := Option.map_eq_some_iff.1 h
    rw [ih (List.not_mem_of_not_mem_cons hcs) hes]
  | case5 => cases h

/-- A literal denotes what it has between its quotes if no backslash is there. -/
theorem eq_iff_of_body? {ds : List Char} (h : body? cs = some ds) : cs = ds ↔ '\\' ∉ cs := by
  refine ⟨?_, fun hcs => (eq_of_body? hcs h).symm⟩
  rintro rfl hmem
  exact Nat.lt_irrefl _ ((length_of_body? h).2 hmem)

/-- What denotes a text has quotes around a body of that text. -/
theorem exists_of_string? {literal text : String} (h : string? literal = some text) :
    ∃ raw, literal = verbatim raw ∧ (raw = text ↔ '\\' ∉ raw.toList) := by
  rw [string?] at h
  split at h
  · rename_i rest hliteral
    split at h
    · rename_i hlast
      obtain ⟨ds, hds, rfl⟩ := Option.map_eq_some_iff.1 h
      refine ⟨String.ofList rest.dropLast, ?_, ?_⟩
      · obtain ⟨body, rfl⟩ := List.getLast?_eq_some_iff.1 (eq_of_beq hlast)
        rw [verbatim, String.toList_ofList, List.dropLast_concat, ← hliteral, String.ofList_toList]
      · rw [String.toList_ofList, ← eq_iff_of_body? hds, String.ofList_inj]
    · cases h
  · cases h

/-! ### Escaped texts -/

/-- The digits of a code in any number denote it. -/
theorem value_toDigits_sixteen (n : Nat) : Numeral.value 16 (Nat.toDigits 16 n) = n := by
  induction n using Nat.strongRecOn with
  | ind n ih =>
    have hdigit : ∀ d < 16, digitValue? 16 (Nat.digitChar d) = some d := by decide
    rcases Nat.lt_or_ge n 16 with hn | hn
    · rw [Nat.toDigits_of_lt_base hn, Numeral.value, List.map_singleton, hdigit n hn]
      exact Nat.zero_add n
    · have hlast := hdigit (n % 16) (Nat.mod_lt _ (by decide))
      have hrest := ih (n / 16) (by omega)
      rw [Numeral.value] at hrest
      rw [Nat.toDigits_of_base_le (by decide) hn, Numeral.value, List.map_append,
        List.map_singleton, hlast, Numeral.ofDigits, List.foldl_append, ← Numeral.ofDigits, hrest]
      exact Nat.div_add_mod' n 16

theorem isNumeral_toDigits_sixteen (n : Nat) : isNumeral 16 (Nat.toDigits 16 n) = true := by
  refine Bool.and_eq_true_iff.2 ⟨by simp [Nat.toDigits_ne_nil], ?_⟩
  have hdigit : ∀ d < 16, isDigitIn 16 (Nat.digitChar d) = true := by decide
  induction n using Nat.strongRecOn with
  | ind n ih =>
    rcases Nat.lt_or_ge n 16 with hn | hn
    · simp [Nat.toDigits_of_lt_base hn, hdigit n hn]
    · rw [Nat.toDigits_of_base_le (by decide) hn, List.all_append, ih (n / 16) (by omega)]
      simp [hdigit (n % 16) (Nat.mod_lt _ (by decide))]

theorem hex_one (n : Nat) : hex 1 n = Nat.toDigits 16 n := by
  have hpos : 1 ≤ (Nat.toDigits 16 n).length := List.length_pos_iff.2 Nat.toDigits_ne_nil
  rw [hex, Nat.sub_eq_zero_of_le hpos, List.replicate_zero, List.nil_append]

/-- The code point of a character, as it is written, denotes the character. -/
theorem codePoint?_hex (c : Char) : codePoint? (hex 1 c.toNat) = some c := by
  have hnumeral := isNumeral_toDigits_sixteen c.toNat
  have hall := (Bool.and_eq_true_iff.1 hnumeral).2
  have hscore (d : Char) (hd : d ∈ Nat.toDigits 16 c.toNat) : d ≠ '_' :=
    ne_of_isDigitIn (List.all_eq_true.1 hall d hd) rfl
  have hfilter : (Nat.toDigits 16 c.toNat).filter (· != '_') = Nat.toDigits 16 c.toNat :=
    List.filter_eq_self.2 fun d hd => bne_iff_ne.2 (hscore d hd)
  have hhead : (Nat.toDigits 16 c.toNat).head? ≠ some '_' := fun h =>
    hscore '_' (List.mem_of_head? h) rfl
  have hlength : (Nat.toDigits 16 c.toNat).length ≤ 6 := by
    refine (Nat.length_toDigits_le_iff (by decide) (by decide)).2 ?_
    have hvalid : c.toNat < 0xD800 ∨ 0xDFFF < c.toNat ∧ c.toNat < 0x110000 := c.valid
    omega
  rw [codePoint?, hex_one, hfilter, hnumeral, value_toDigits_sixteen, Scan.scalar?_toNat, if_pos]
  simp [hhead, hlength]

/-- The digits of a code end at the brace behind them. -/
theorem escape?_codePoint (c : Char) (rest : List Char) :
    escape? ('u' :: '\x7b' :: (hex 1 c.toNat ++ '\x7d' :: rest)) = some ([c], rest) := by
  have hbrace : ∀ d ∈ hex 1 c.toNat, (d != '\x7d') = true := by
    intro d hd
    rw [hex_one] at hd
    have hall := (Bool.and_eq_true_iff.1 (isNumeral_toDigits_sixteen c.toNat)).2
    exact bne_iff_ne.2 (ne_of_isDigitIn (List.all_eq_true.1 hall d hd) rfl)
  rw [escape?, List.dropWhile_append_of_pos hbrace, List.takeWhile_append_of_pos hbrace]
  simp [codePoint?_hex]

/-- What a character is spelled by denotes the character. -/
theorem body?_spell_append (c : Char) (cs : List Char) :
    body? (spell c ++ cs) = (body? cs).map (c :: ·) := by
  -- every escape of one letter denotes the character that it is chosen for
  have hletter {letter d : Char} (h : escape? (letter :: cs) = some ([d], cs))
      (hc : (c == d) = true) :
      body? (['\\', letter] ++ cs) = (body? cs).map (c :: ·) := by
    rw [eq_of_beq hc]
    exact body?_escape h
  rw [spell]
  split
  · exact hletter rfl ‹_›
  split
  · exact hletter rfl ‹_›
  split
  · exact hletter rfl ‹_›
  split
  · exact hletter rfl ‹_›
  split
  · exact hletter rfl ‹_›
  split
  · exact hletter rfl ‹_›
  split
  · have h := body?_escape (escape?_codePoint c cs)
    simpa using h
  · refine body?_cons ?_
    simp_all [isVerbatim]

/-- The escaped characters of a text denote the text. -/
theorem body?_spellInCode (cs : List Char) : body? (spellInCode cs) = some cs := by
  induction cs with
  | nil => exact body?_nil
  | cons c cs ih =>
    rw [spellInCode]
    split
    · rename_i hzero
      obtain ⟨hc, -⟩ := Bool.and_eq_true_iff.1 hzero
      have hescape (rest : List Char) : escape? ('x' :: '0' :: '0' :: rest) =
          some (['\x00'], rest) := rfl
      rw [eq_of_beq hc]
      refine (body?_escape (hescape (spellInCode cs))).trans ?_
      rw [ih]
      rfl
    · rw [body?_spell_append, ih, Option.map_some]

/-- The literal of a text in program code denotes the text. -/
theorem string?_quoteInCode (text : String) : string? (quoteInCode text) = some text := by
  rw [quoteInCode, string?_ofList, body?_spellInCode, Option.map_some, String.ofList_toList]

end FormTree.Template.Literal
