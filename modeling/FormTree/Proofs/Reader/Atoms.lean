import FormTree.Proofs.Number.Float
import FormTree.Proofs.Reader.Back
import FormTree.Proofs.Source.Body

/-!
# Atoms read back

The texts of atoms are tokens, numbers, and what runs to a quote or to the end of a line. A symbolic
number is a token after two hash signs.
-/

namespace FormTree

open Read

namespace Level

variable {setting : Setting} {F : Frame} {total : Bool} {below : FormReader} {tail : List Char}

/-! ### Tokens -/

theorem isDigit_eq_false_of_endsToken {c : Char} (h : endsToken c = true) :
    Text.isDigit c = false := by
  rw [Bool.eq_false_iff]
  intro hdigit
  have hnumber := Number.endsNumber_of_isDigit hdigit
  simp only [endsNumber, Bool.or_eq_false_iff] at hnumber
  simp [endsToken, isTerminating, hnumber.1, hnumber.2] at h

/-- A token is scanned up to what ends it, and then interpreted. -/
theorem triple_token {first : Char} {cs : List Char} {Q : Step → State → Prop}
    (hcs : cs.all (!endsToken ·) = true) (htail : ∀ c ∈ tail.head?, endsToken c = true)
    (h : Triple total (State.At · F tail) (do
      return .form (← ofExcept (Token.interpret setting.host.resolver
        (String.ofList (first :: cs)))) : Read Step) Q) :
    Triple total (State.At · F (cs ++ tail)) (token setting first) Q :=
  .bind_eq (triple_scan (Scan.triple_token hcs htail)) h

/-- A plain token is read up to what ends it. -/
theorem triple_start_token {first : Char} {cs : List Char} {Q : Step → State → Prop}
    (hplain : Token.isPlain (first :: cs) = true) (htail : ∀ c ∈ tail.head?, endsToken c = true)
    (h : Triple total (State.At · F tail) (do
      return .form (← ofExcept (Token.interpret setting.host.resolver
        (String.ofList (first :: cs)))) : Read Step) Q) :
    Triple total (State.Past · F (cs ++ tail)) (start below setting first) Q := by
  simp only [Token.isPlain, Bool.and_eq_true, Bool.not_eq_true'] at hplain
  obtain ⟨⟨⟨⟨hdigit, htrigger⟩, -⟩, hsign⟩, hcs⟩ := hplain
  have htoken : Triple total (State.At · F (cs ++ tail)) (token setting first) Q :=
    triple_token hcs htail h
  have hnone : Trigger.ofChar? first = none := by
    rw [isTrigger, Option.isSome_eq_false_iff, Option.isNone_iff_eq_none] at htrigger
    exact htrigger
  rw [start, if_neg (by simp [hdigit]), hnone]
  dsimp only
  split
  · rename_i hplus
    rw [hplus, Bool.true_and] at hsign
    -- after a sign the next character is looked at, and it begins no number
    rcases hrest : cs ++ tail with - | ⟨d, rest⟩
    · rw [hrest] at htoken
      exact .bind_eq (triple_next_nil.pre fun _ hs => hs.at) htoken
    · have hd : Text.isDigit d = false := by
        rcases cs with - | ⟨d', cs⟩
        · rw [List.nil_append] at hrest
          exact isDigit_eq_false_of_endsToken (htail d (by rw [hrest]; rfl))
        · cases hrest
          simpa using hsign
      rw [hrest] at htoken
      refine .bind_eq ((triple_next d).pre fun _ hs => hs.at) ?_
      exact .bind (triple_unread d) fun _ => .ite_false (by simp [hd]) htoken
  · exact htoken.pre fun _ hs => hs.at

end Level

section

variable {regex : RegexEngine} {options : Options} {F : Frame}

/-- The first character of a token opens a form, and is not taken for a part of an unquote. -/
theorem opens_of_isPlain {c : Char} {cs : List Char} (h : Token.isPlain (c :: cs) = true) :
    opens c = true ∧ c ≠ '@' := by
  simp only [Token.isPlain, Bool.and_eq_true, Bool.not_eq_true'] at h
  obtain ⟨⟨⟨⟨-, htrigger⟩, hblank⟩, -⟩, -⟩ := h
  have hne {d : Char} (hd : isTrigger d = true) : c ≠ d := by
    rintro rfl
    rw [htrigger] at hd
    cases hd
  refine ⟨?_, hne (by decide)⟩
  simp [opens, hblank, hne (d := ')') (by decide), hne (d := ']') (by decide),
    hne (d := '\x7d') (by decide)]

/-- What may follow a form ends a token, unless the form ends with a comment. -/
theorem endsToken_of_follows {f : Form} {tail : List Char} (hcomment : f.endsWithComment = false)
    (htail : f.Follows tail) : ∀ c ∈ tail.head?, endsToken c = true := by
  intro c hc
  have hc := htail c hc
  rwa [hcomment, if_neg (by decide)] at hc

/-- A form whose text is a plain token is read as what the token denotes. -/
theorem readsBack_of_isPlain {f : Form} (text : String) (hchars : f.chars = text.toList)
    (hplain : Token.isPlain text.toList = true) (hcomment : f.endsWithComment = false)
    (hgood : f.isFaithful = true → Token.interpret Resolver.standard text = .ok f)
    (hbad : f.isFaithful = false →
      ∀ g, Token.interpret Resolver.standard text = .ok g → f.same g = false) :
    ReadsBack regex options F f := by
  rcases hcs : text.toList with - | ⟨c, cs⟩
  · rw [hcs] at hplain
    cases hplain
  · have htext : String.ofList (c :: cs) = text := by rw [← hcs, String.ofList_toList]
    rw [hcs] at hplain hchars
    obtain ⟨hopens, hat⟩ := opens_of_isPlain hplain
    refine ⟨c, cs, hchars, hopens, fun h => absurd h hat, fun tail htail => ?_⟩
    refine Level.triple_start_token hplain (endsToken_of_follows hcomment htail) ?_
    have hresolver : (Setting.standard regex options).host.resolver = Resolver.standard := rfl
    rw [htext, hresolver]
    -- the token of a form that is not faithful denotes another form, or none
    rcases hfaithful : f.isFaithful with - | -
    · rcases hread : Token.interpret Resolver.standard text with e | g
      · exact .throw
      · exact .pure fun s _ => hbad hfaithful g hread
    · rw [hgood hfaithful]
      exact .pure fun s hs => ⟨rfl, hs.before⟩

theorem readsBack_nil : ReadsBack regex options F .nil := by
  have htext : "nil".toList = ['n', 'i', 'l'] := by decide
  refine readsBack_of_isPlain "nil" ?_ ?_ rfl (fun _ => rfl) fun h => nomatch h
  · rw [Form.chars_nil, htext]
  · rw [htext]
    decide

theorem readsBack_bool (b : Bool) : ReadsBack regex options F (.bool b) := by
  have htrue : "true".toList = ['t', 'r', 'u', 'e'] := by decide
  have hfalse : "false".toList = ['f', 'a', 'l', 's', 'e'] := by decide
  refine readsBack_of_isPlain _ (Form.chars_bool b) ?_ rfl (fun _ => ?_) fun h => nomatch h
  · rcases b with - | -
    · exact hfalse ▸ by decide
    · exact htrue ▸ by decide
  · rcases b with - | -
    · rfl
    · rfl

/-- A symbol whose text is a token for it reads back. -/
theorem readsBack_symbol {s : Symbol} (hplain : Token.isPlain s.toText.toList = true)
    (hread : Token.interpret Resolver.standard s.toText = .ok (.symbol s)) :
    ReadsBack regex options F (.symbol s) :=
  readsBack_of_isPlain _ (Form.chars_symbol s) hplain rfl (fun _ => hread) fun h => nomatch h

/-- A keyword reads back as itself, or, if its text is no token for it, as something else. -/
theorem readsBack_keyword {k : Keyword} (hplain : Token.isPlain k.toText.toList = true) :
    ReadsBack regex options F (.keyword k) := by
  refine readsBack_of_isPlain _ (Form.chars_keyword k) hplain rfl (fun h => ?_) fun h g hg => ?_
  · have hfaithful : k.isFaithful = true := h
    rw [Keyword.isFaithful] at hfaithful
    split at hfaithful
    · rename_i l hl
      rw [hl, ← eq_of_beq hfaithful]
    · cases hfaithful
  · have hfaithful : k.isFaithful = false := h
    rw [Keyword.isFaithful, hg] at hfaithful
    cases g with
    | keyword l => exact hfaithful
    | _ => rfl

/-! ### Numbers -/

/-- What ends a token ends a number. -/
theorem endsNumber_of_endsToken {c : Char} (h : endsToken c = true) : endsNumber c = true := by
  simp only [endsToken, isTerminating, Bool.or_eq_true, Bool.and_eq_true] at h
  rw [endsNumber, Bool.or_eq_true]
  rcases h with h | h
  · exact .inl h
  · exact .inr h.1.1.1

/-- A number begins with a digit, after a sign. -/
theorem triple_start_number {total : Bool} {below : FormReader} {setting : Setting} {first : Char}
    {cs tail : List Char} {Q : Step → State → Prop} (htoken : Number.IsToken (first :: cs))
    (h : Triple total (State.At · F (cs ++ tail)) (Level.number first) Q) :
    Triple total (State.Past · F (cs ++ tail)) (Level.start below setting first) Q := by
  obtain ⟨negative, d, rest, hcs, hd, -⟩ := htoken
  rcases negative with - | -
  · cases hcs
    rw [Level.start, if_pos hd]
    exact h.pre fun _ hs => hs.at
  · cases hcs
    have hstart : Level.start below setting '-' = Level.signed setting '-' := rfl
    rw [hstart]
    refine .bind_eq ((triple_next d).pre fun _ hs => hs.at) ?_
    exact .bind (triple_unread d) fun _ => .ite_true hd h

/-- The token of a number opens a form, and its first character says that it is a number. -/
theorem opens_of_isToken {c : Char} {cs : List Char} (h : Number.IsToken (c :: cs)) :
    opens c = true ∧ c ≠ '@' ∧ cs.all (!endsNumber ·) = true := by
  obtain ⟨negative, d, rest, hcs, hd, hrest⟩ := h
  have hnumber := Number.endsNumber_of_isDigit hd
  rcases negative with - | -
  · cases hcs
    have hne {b : Char} (hb : Text.isDigit b = false) : c ≠ b := Text.ne_of_isDigit hd hb
    simp only [endsNumber, Bool.or_eq_false_iff] at hnumber
    refine ⟨?_, hne (by decide), hrest⟩
    simp [opens, hnumber.1, hne (b := ')') (by decide), hne (b := ']') (by decide),
      hne (b := '\x7d') (by decide)]
  · cases hcs
    refine ⟨by decide, by decide, ?_⟩
    simp [hnumber, hrest]

/-- A number is read up to what ends its token. -/
theorem triple_start_number_of_ofToken? {total : Bool} {below : FormReader} {setting : Setting}
    {first : Char} {cs tail : List Char} {n : Number} (htoken : Number.IsToken (first :: cs))
    (hread : Number.ofToken? (String.ofList (first :: cs)) = some n)
    (htail : ∀ c ∈ tail.head?, endsToken c = true) :
    Triple total (State.Past · F (cs ++ tail)) (Level.start below setting first) fun step s =>
      step = .form (.number n) ∧ s.At F tail := by
  have hends : ∀ c ∈ tail.head?, endsNumber c = true := fun c hc =>
    endsNumber_of_endsToken (htail c hc)
  exact triple_start_number htoken (.bind_eq
    (triple_scan (Scan.triple_number (opens_of_isToken htoken).2.2 hends hread))
    (.pure fun _ hs => ⟨rfl, hs⟩))

/-- A number that is spelled in digits reads back. -/
theorem readsBack_number_of_isInDigits {n : Number} (hnormal : n.IsNormal)
    (hdigits : n.isInDigits = true) : ReadsBack regex options F (.number n) := by
  have htoken := Number.isToken_spelling hdigits
  obtain ⟨c, cs, hcs⟩ := htoken.exists_cons
  have htext : String.ofList (c :: cs) = n.spelling := by rw [← hcs, String.ofList_toList]
  rw [hcs] at htoken
  obtain ⟨hopens, hat, hall⟩ := opens_of_isToken htoken
  refine ⟨c, cs, (Form.chars_number n).trans hcs, hopens, fun h =>
    absurd h hat, fun tail htail => ?_⟩
  have hends := endsToken_of_follows (f := .number n) rfl htail
  have hfaithful : (Form.number n).isFaithful = n.isFaithful := rfl
  rw [hfaithful]
  rcases h : n.isFaithful with - | -
  · -- the token of a number that is not faithful is refused, or denotes another number
    rcases hread : Number.ofToken? n.spelling with - | m
    · refine triple_start_number htoken (.bind (triple_scan_of (Scan.triple_number_of_none
        (Q := fun _ _ => False) hall (fun d hd => endsNumber_of_endsToken (hends d hd))
        (htext ▸ hread))) fun _ => ?_)
      exact fun s hs => hs.2.elim
    · refine (triple_start_number_of_ofToken? htoken (htext ▸ hread) hends).mono (fun _ hs => hs) ?_
      rintro _ s ⟨rfl, -⟩
      exact Number.same_eq_false_of_ofToken? hnormal hdigits h hread
  · have hread := (Number.ofToken?_spelling_iff hnormal hdigits).2 h
    refine (triple_start_number_of_ofToken? htoken (htext ▸ hread) hends).mono (fun _ hs => hs) ?_
    rintro _ s ⟨rfl, hs⟩
    exact ⟨rfl, hs.before⟩

/-- The tokens after two hash signs, and what they denote. -/
def symbolics : List (List Char × Binary64) :=
  [(['I', 'n', 'f'], .infinity false), (['-', 'I', 'n', 'f'], .infinity true),
    (['N', 'a', 'N'], .nan)]

/-- A name for an infinity, or for what is no number, gives that number. -/
theorem triple_symbolic {total : Bool} {token tail : List Char} {x : Binary64}
    (h : (token, x) ∈ symbolics) (htail : ∀ c ∈ tail.head?, endsToken c = true) :
    Triple total (State.At · F (token ++ tail)) Level.symbolic fun step s =>
      step = .form (.number (.float x)) ∧ s.At F tail := by
  have hscan (first : Char) (cs : List Char) (hcs : cs.all (!endsToken ·) = true) :
      Triple total (State.Past · F (cs ++ tail)) (scan (Scan.token first)) fun text s =>
        text = String.ofList (first :: cs) ∧ s.At F tail :=
    (triple_scan (Scan.triple_token hcs htail)).pre fun _ hs => hs.at
  simp only [symbolics, List.mem_cons, List.not_mem_nil, or_false, Prod.mk.injEq] at h
  -- the token decides between the three values
  rcases h with ⟨rfl, rfl⟩ | ⟨rfl, rfl⟩ | ⟨rfl, rfl⟩
  all_goals
    refine .bind_eq (triple_nextCharacter _) (.bind_eq (hscan _ _ (by decide)) ?_)
    exact .pure fun s hs => ⟨rfl, hs⟩

/-- What is not finite is a token after two hash signs. -/
theorem readsBack_symbolic {x : Binary64} (token : List Char) (y : Binary64)
    (h : (token, y) ∈ symbolics)
    (htext : (Number.floatText x).toList = '#' :: '#' :: token)
    (hgood : x.isNaN = false → y = x) : ReadsBack regex options F (.number (.float x)) := by
  refine ⟨'#', '#' :: token, (Form.chars_number _).trans htext, by decide, nofun,
    fun tail htail => ?_⟩
  have hstart : Level.start (.nesting F.remaining) (.standard regex options) '#' =
      Level.hash (.nesting F.remaining) (.standard regex options) := rfl
  have hfaithful : (Form.number (.float x)).isFaithful = !x.isNaN := rfl
  rw [hstart, hfaithful]
  refine .bind_eq ((triple_nextCharacter '#').pre fun _ hs => hs.at) ?_
  refine ((triple_symbolic h (endsToken_of_follows rfl htail)).pre fun _ hs => hs.at).mono
    (fun _ hs => hs) ?_
  rintro _ s ⟨rfl, hs⟩
  rcases hnan : x.isNaN with - | -
  · exact ⟨by rw [hgood hnan]; rfl, hs.before⟩
  · have hsame : x.same y = false := by simp [Binary64.same, hnan]
    exact hsame

/-- A floating-point number that is not spelled in digits has a name. -/
theorem readsBack_float {x : Binary64} (h : Binary64.infinityCode ≤ x.code) :
    ReadsBack regex options F (.number (.float x)) := by
  -- From the code of infinity on there is only infinity itself and what is no number.
  by_cases hnan : x.isNaN = true
  · refine readsBack_symbolic ['N', 'a', 'N'] .nan (by simp [symbolics]) ?_ ?_
    · rw [Number.floatText, if_pos hnan]
      decide
    · intro h
      rw [hnan] at h
      cases h
  · have hcode : x.code = Binary64.infinityCode := by
      simp only [Binary64.isNaN, decide_eq_true_eq] at hnan
      omega
    have hinfinite : x.isInfinite = true := by rw [Binary64.isInfinite, hcode]; rfl
    have hx : Binary64.infinity x.isNegative = x := by
      rw [Binary64.infinity, ← hcode, Binary64.ofCode_code]
    rcases hsign : x.isNegative with - | -
    · rw [hsign] at hx
      refine readsBack_symbolic ['I', 'n', 'f'] (.infinity false)
        (by simp [symbolics]) ?_ fun _ => hx
      rw [Number.floatText, if_neg hnan, if_pos hinfinite, if_neg (by simp [hsign])]
      decide
    · rw [hsign] at hx
      refine readsBack_symbolic ['-', 'I', 'n', 'f'] (.infinity true)
        (by simp [symbolics]) ?_ fun _ => hx
      rw [Number.floatText, if_neg hnan, if_pos hinfinite, if_pos hsign]
      decide

/-- Every number that is normal reads back. -/
theorem readsBack_number {n : Number} (hnormal : n.IsNormal) :
    ReadsBack regex options F (.number n) := by
  by_cases hdigits : n.isInDigits = true
  · exact readsBack_number_of_isInDigits hnormal hdigits
  · cases n with
    | float x => exact readsBack_float (by simpa [Number.isInDigits] using hdigits)
    | _ => exact absurd rfl hdigits

/-! ### Literals -/

/-- The escaped characters of a string are scanned as its text. -/
theorem triple_start_string {total : Bool} {below : FormReader} {setting : Setting}
    {tail : List Char} (text : String) :
    Triple total (State.Past · F (text.toList.flatMap escaped ++ ['"'] ++ tail))
      (Level.start below setting '"') fun step s => step = .form (.string text) ∧ s.At F tail := by
  have hstart : Level.start below setting '"' =
      (do return .form (.string (← scan Scan.string)) : Read Step) := rfl
  rw [hstart, List.append_assoc]
  exact .bind_eq ((triple_scan (Scan.triple_string text)).pre fun _ hs => hs.at)
    (.pure fun _ hs => ⟨rfl, hs⟩)

theorem readsBack_string (text : String) : ReadsBack regex options F (.string text) := by
  refine ⟨'"', _, Form.chars_string text, by decide, nofun, fun tail _ => ?_⟩
  refine (triple_start_string text).mono (fun _ hs => hs) ?_
  rintro _ s ⟨rfl, hs⟩
  exact ⟨rfl, hs.before⟩

/-- A pattern reads back where the engine compiles its source. -/
theorem readsBack_pattern {source : String} {compiled : Bool}
    (hbody : Scan.isPatternBody source.toList = true)
    (hread : (Host.standard regex).patterns source = .ok (.pattern source compiled)) :
    ReadsBack regex options F (.pattern source compiled) := by
  refine ⟨'#', _, Form.chars_pattern source compiled, by decide, nofun, fun tail _ => ?_⟩
  have hstart : Level.start (.nesting F.remaining) (.standard regex options) '#' =
      Level.hash (.nesting F.remaining) (.standard regex options) := rfl
  rw [hstart, List.cons_append, List.append_assoc]
  refine .bind_eq ((triple_nextCharacter '"').pre fun _ hs => hs.at) ?_
  refine .bind_eq ((triple_scan (Scan.triple_pattern hbody)).pre fun _ hs => hs.at) ?_
  rw [hread]
  exact .pure fun s hs => ⟨rfl, hs.before⟩

/-- A character literal reads back by the token that it keeps. -/
theorem readsBack_charLiteral {token : String} {c : Char}
    (htoken : Token.isCharToken token.toList = true) (hread : Scan.charForToken token = .ok c) :
    ReadsBack regex options F (.charLiteral token c) := by
  refine ⟨'\\', _, Form.chars_charLiteral token c, by decide, (absurd · (by decide)),
    fun tail htail => ?_⟩
  have hstart : Level.start (.nesting F.remaining) (.standard regex options) '\\' = (do
      let literal ← scan Scan.charLiteral
      return .form (.charLiteral literal.1 literal.2) : Read Step) := rfl
  rw [hstart]
  exact .bind_eq ((triple_scan (Scan.triple_charLiteral htoken hread
    (endsToken_of_follows rfl htail))).pre fun _ hs => hs.at) (.pure fun s hs => ⟨rfl, hs.before⟩)

theorem endsToken_eq_false_of_isDigit {c : Char} (h : Text.isDigit c = true) :
    endsToken c = false := by
  rcases hends : endsToken c with - | -
  · rfl
  · rw [Level.isDigit_eq_false_of_endsToken hends] at h
    cases h

theorem ArgRef.all_token (ref : ArgRef) : ref.token.all (!endsToken ·) = true := by
  cases ref with
  | implicit => decide
  | rest => decide
  | index n =>
    rw [List.all_eq_true]
    intro c hc
    have hdigit := List.all_eq_true.1 (Numeral.all_toDigits n) c hc
    simp [endsToken_eq_false_of_isDigit hdigit]

/-- The token of an argument is read as it, if its index fits 32 bits. -/
theorem argRef?_token {ref : ArgRef} (h : ∀ n, ref = .index n → 0 < n ∧ n < 2 ^ 32) :
    Level.argRef? ref.token = some ref := by
  cases ref with
  | implicit => rfl
  | rest => rfl
  | index n =>
    obtain ⟨hpos, hlt⟩ := h n rfl
    have hdigits := Numeral.all_toDigits n
    rw [ArgRef.token, Level.argRef?]
    · rw [Numeral.value_toDigits, hdigits, decide_eq_true hpos, decide_eq_true hlt]
      rfl
    · exact fun hnil => Nat.toDigits_ne_nil hnil
    · intro hrest
      rw [hrest] at hdigits
      cases hdigits

theorem readsBack_arg {ref : ArgRef} (h : ∀ n, ref = .index n → 0 < n ∧ n < 2 ^ 32) :
    ReadsBack regex options F (.arg ref) := by
  refine ⟨'%', ref.token, Form.chars_arg ref, by decide, nofun, fun tail htail => ?_⟩
  have hstart : Level.start (.nesting F.remaining) (.standard regex options) '%' = Level.arg := rfl
  have hends := endsToken_of_follows rfl htail
  rw [hstart]
  refine .bind_eq ((triple_scan (Scan.triple_token ref.all_token hends)).pre fun _ hs => hs.at) ?_
  have htoken : (String.ofList ('%' :: ref.token)).toList.tail = ref.token := by simp
  rw [htoken, argRef?_token h]
  exact .pure fun s hs => ⟨rfl, hs.before⟩

/-! ### Trivia -/

theorem readsBack_comma (hkeep : options.trivia = .keep) : ReadsBack regex options F .comma := by
  refine ⟨',', [], Form.chars_comma, by decide, nofun, fun tail _ => ?_⟩
  have hstart : Level.start (.nesting F.remaining) (.standard regex options) ',' =
      (return Level.trivia (.standard regex options) .comma : Read Step) := rfl
  rw [hstart, Level.trivia, hkeep]
  exact .pure fun s hs => ⟨rfl, hs.before⟩

/-- A comment reads back to the end of its line. -/
theorem readsBack_comment (hkeep : options.trivia = .keep) (style : CommentStyle) {text : String}
    (htext : text.toList.all (!Scan.endsLine ·) = true) :
    ReadsBack regex options F (.comment style text) := by
  have hline {tail : List Char} (htail : (Form.comment style text).Follows tail) :
      Triple true (State.At · F (text.toList ++ tail))
        (do
          return Level.trivia (.standard regex options) (.comment style (← scan Scan.line)) :
            Read Step)
        fun step s => step.Gives (·.core = (Form.comment style text).core) ∧ s.Before F tail := by
    have hends : ∀ c ∈ tail.head?, Scan.endsLine c = true := by
      intro c hc
      have hbreak : c = '\n' := htail c hc
      rw [hbreak]
      rfl
    refine .bind_eq (triple_scan (Scan.triple_line htext hends)) ?_
    rw [Level.trivia, hkeep]
    refine .pure fun s hs => ⟨rfl, tail.tail, ?_, hs⟩
    -- the break that ends the comment has been passed over with it
    rcases tail with - | ⟨c, tail⟩
    · exact .inl rfl
    · exact .inr (by rw [htail c rfl]; rfl)
  cases style with
  | line =>
    have hopen : CommentStyle.line.text.toList = [';'] := by decide
    refine ⟨';', text.toList, ?_, by decide, (absurd · (by decide)), fun tail htail => ?_⟩
    · rw [Form.chars_comment, hopen]
      rfl
    · exact (hline htail).pre fun _ hs => hs.at
  | shebang =>
    have hopen : CommentStyle.shebang.text.toList = ['#', '!'] := by decide
    refine ⟨'#', '!' :: text.toList, ?_, by decide, (absurd · (by decide)), fun tail htail => ?_⟩
    · rw [Form.chars_comment, hopen]
      rfl
    · refine .bind_eq ((triple_nextCharacter '!').pre fun _ hs => hs.at) ?_
      exact (hline htail).pre fun _ hs => hs.at

end

end FormTree
