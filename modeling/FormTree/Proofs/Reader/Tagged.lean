import FormTree.Proofs.Reader.Atoms
import FormTree.Proofs.Reader.Grammar
import FormTree.Proofs.Token.Stored

/-!
# Tagged forms of any host

A host **leaves tags alone** if its only data reader is a fallback that gives every tagged form back
as it is. With such a host a tagged form that data readers are asked about is spelled by a hash
sign, a tag and a form, and its tag is a token. Text of that kind is read with any host; only the
character after the hash sign has to be one that begins a tag.
-/

namespace FormTree

open Cursor Read

/-! ### Hosts that leave tags alone -/

/-- Whether a form can be what a pattern or a record stands for: it is no symbol, and no tagged form
that data readers are asked about. -/
def Form.IsValue : Form → Prop
  | .symbol _ => False
  | .tagged tag _ => '.' ∈ tag.name.toList
  | _ => True

/-- Whether a form is a symbol, a string or an integer. -/
def Form.isScalar : Form → Bool
  | .symbol _ | .string _ => true
  | .number n => n.toInt?.isSome
  | _ => false

/-- Whether the only data reader of a host is a fallback that gives the tagged form back. Patterns
and records stand for other forms. -/
structure Host.LeavesTags (host : Host) : Prop where
  dataReaders_eq :
    host.dataReaders = DataReaders.empty.withFallback fun tag f => .ok (.tagged tag f)
  isValue_of_patterns : ∀ {source f}, host.patterns source = .ok f → f.IsValue
  isValue_of_record :
    ∀ {tag f g}, '.' ∈ tag.name.toList → Level.record host tag f = .ok g → g.IsValue

variable {regex : RegexEngine} {options : Options} {host : Host} {loose : Bool} {F : Frame}
  {p q r : Spot} {f g : Form} {tag : Symbol}

/-- Nothing in a scalar has a text that reads as something else. -/
theorem Form.isFaithful_of_isScalar (h : f.isScalar = true) : f.isFaithful = true := by
  cases f with
  | symbol _ | string _ => rfl
  | number n =>
    cases n with
    | int _ | big _ => rfl
    | _ => cases h
  | _ => cases h

/-- Scalars that say the same are the same. -/
theorem Form.eq_of_same (hf : f.isScalar = true) (h : f.same g = true) : g = f := by
  cases f with
  | symbol s =>
    cases g with
    | symbol t => rw [eq_of_beq (h : (s == t) = true)]
    | _ => cases h
  | string s =>
    cases g with
    | string t => rw [eq_of_beq (h : (s == t) = true)]
    | _ => cases h
  | number n =>
    cases g with
    | number m =>
      have hsame : n.same m = true := h
      cases n with
      | int a =>
        cases m with
        | int b => rw [eq_of_beq (hsame : (a == b) = true)]
        | _ => cases hsame
      | big a =>
        cases m with
        | big b => rw [eq_of_beq (hsame : (a == b) = true)]
        | _ => cases hsame
      | _ => cases hf
    | _ => cases h
  | _ => cases hf

namespace RecordType

/-- Records with named fields are tagged with the name of their type. -/
theorem exists_tagged_of_makeRecord {fields : List String} {name : Symbol}
    (h : Level.makeRecord (named fields) name f = .ok g) : ∃ e, g = .tagged name e := by
  unfold Level.makeRecord at h
  split at h
  · dsimp only at h
    split at h
    · cases h
      exact ⟨_, rfl⟩
    · cases h
  · split at h
    · cases h
      exact ⟨_, rfl⟩
    · cases h
  · cases h

end RecordType

/-- Such are the hosts with the default patterns and records of named fields. -/
theorem Host.LeavesTags.of_named {regex : RegexEngine}
    (hreaders : host.dataReaders = DataReaders.empty.withFallback fun tag f => .ok (.tagged tag f))
    (hpatterns : host.patterns = Host.compilePattern regex)
    (hrecords : ∀ name type, (name, type) ∈ host.records → ∃ fields, type = .named fields) :
    host.LeavesTags where
  dataReaders_eq := hreaders
  isValue_of_patterns {source f} h := by
    rw [hpatterns] at h
    obtain rfl := Host.eq_pattern_of_compilePattern h
    trivial
  isValue_of_record {tag f g} hdot h := by
    unfold Level.record at h
    split at h
    · cases h
    split at h
    · cases h
    · rename_i type htype
      obtain ⟨before, after, hentries, -⟩ := List.lookup_eq_some_iff.1 htype
      obtain ⟨fields, rfl⟩ := hrecords tag type (by rw [hentries]; simp)
      obtain ⟨e, rfl⟩ := RecordType.exists_tagged_of_makeRecord h
      exact hdot

/-- The default host, but for tags. -/
def Host.tagging (regex : RegexEngine) : Host :=
  { Host.standard regex with
    dataReaders := DataReaders.empty.withFallback fun tag f => .ok (.tagged tag f) }

/-- There are hosts that leave tags alone. -/
theorem Host.leavesTags_tagging (regex : RegexEngine) : (Host.tagging regex).LeavesTags :=
  .of_named rfl rfl nofun

namespace Level

/-- A tag without a dot is left alone by such a host, in a conditional or not. -/
theorem interpretTagged_of_leavesTags (hhost : host.LeavesTags) (hdot : '.' ∉ tag.name.toList)
    (inConditional : Bool) (f : Form) :
    interpretTagged ⟨options, host⟩ inConditional tag f = .ok (.tagged tag f) := by
  unfold interpretTagged
  split
  · rfl
  · rw [if_neg (by simpa using hdot), hhost.dataReaders_eq]
    rfl

/-- A record may stand for something else. -/
theorem eq_or_isValue_of_interpretTagged (hhost : host.LeavesTags) {inConditional : Bool}
    (h : interpretTagged ⟨options, host⟩ inConditional tag f = .ok g) :
    g = .tagged tag f ∨ g.IsValue := by
  by_cases hdot : '.' ∈ tag.name.toList
  · unfold interpretTagged at h
    split at h
    · cases h
      exact .inl rfl
    · rw [if_pos (by simpa using hdot)] at h
      exact .inr (hhost.isValue_of_record hdot h)
  · rw [interpretTagged_of_leavesTags hhost hdot] at h
    cases h
    exact .inl rfl

/-- What stands for a backquoted form is a value. -/
theorem isValue_of_backquote {gensyms : List (Symbol × Symbol)}
    (h : backquote f gensyms = .ok g) : g.IsValue := by
  unfold backquote at h
  split at h
  · cases h
  · cases h
    split <;> trivial
  · cases h
    split
    · -- only literals stay as they are
      cases f <;> trivial
    · trivial

end Level

/-! ### What is spelled -/

/-- A token that does not begin like a number or with a trigger is plain. -/
theorem Scan.Gives.isPlain {c : Char} {text : String}
    (hplain : isTrigger c = false ∧ Text.isBlank c = false ∧ beginsNumber c q.ahead = false)
    (h : Scan.Gives (Scan.token c) q text r) : Token.isPlain text.toList = true := by
  obtain ⟨htrigger, hblank, hbegins⟩ := hplain
  obtain ⟨-, k, l, hk, htoken, -⟩ := h
  obtain ⟨rest, hrest, rfl⟩ := Scan.token_eq_ok.1 htoken
  have hhead : rest.head? = none ∨ rest.head? = q.ahead.head? := by
    rcases hq : q.ahead with - | ⟨d, ds⟩
    · exact head?_of_takeTo (next_of_standsAt_nil hk hq) hrest
    · obtain ⟨l, hl, -⟩ := next_of_standsAt hk (Spot.takes_of_ahead hq)
      exact head?_of_takeTo hl hrest
  rw [beginsNumber, Bool.or_eq_false_iff] at hbegins
  obtain ⟨hdigit, hsign⟩ := hbegins
  have hsign : ((c == '+' || c == '-') && rest.head?.any Text.isDigit) = false := by
    rcases hhead with hhead | hhead
    · rw [hhead, Option.any_none, Bool.and_false]
    · rw [hhead]
      exact hsign
  rw [String.toList_ofList, Token.isPlain, hdigit, htrigger, hblank, hsign, all_of_takeTo hrest]
  rfl

/-- Whether the text of a symbol is a plain token that denotes it. -/
def Symbol.IsToken (resolver : Resolver) (s : Symbol) : Prop :=
  Token.isPlain s.toText.toList = true ∧ Token.interpret resolver s.toText = .ok (.symbol s)

/-- A token that denotes a symbol is the text of it. -/
theorem Token.spelling_of_interpret {resolver : Resolver} {text : String} {s : Symbol}
    (h : interpret resolver text = .ok (.symbol s)) : s.toText = text := by
  have h : interpret resolver text = .ok (s.toForm false) := h
  obtain ⟨-, -, rest, htext, rfl⟩ :=
    exists_eq_parse_of_named? (named?_of_interpret_toForm h) nofun
  rw [Symbol.toText_parse, ← String.toList_inj, String.toList_ofList, htext]
  rfl

/-- A symbol that is spelled where tags are left alone is spelled by a token of it. -/
theorem Spells.isToken_of_symbol (hhost : host.LeavesTags) {s : Symbol}
    (h : Spells ⟨options, host⟩ loose F p (.symbol s) q) : s.IsToken host.resolver := by
  cases h with
  | token _ hplain h hread =>
    rw [Symbol.IsToken, Token.spelling_of_interpret hread]
    exact ⟨h.isPlain hplain, hread⟩
  | pattern _ _ hread => exact (hhost.isValue_of_patterns hread).elim
  | backquoted _ _ hread => exact (Level.isValue_of_backquote hread).elim
  | tagged _ _ _ _ _ hread =>
    rcases Level.eq_or_isValue_of_interpretTagged hhost hread with heq | hvalue
    · cases heq
    · exact hvalue.elim

/-- Where trivia is kept it stands for itself. -/
theorem SpellsNext.exists_spells (hkeep : options.trivia = .keep) (htrivia : f.isTrivia = false)
    (h : SpellsNext ⟨options, host⟩ loose F p f r) :
    ∃ q, p.Blanks q ∧ Spells ⟨options, host⟩ loose F q f r := by
  cases h with
  | form hblanks h => exact ⟨_, hblanks, h⟩
  | kept _ _ _ h => cases h <;> cases htrivia
  | skipped _ hmode =>
    have hskip : options.trivia = .skip := hmode
    rw [hkeep] at hskip
    cases hskip

/-- Where a text goes on with a character that is no blank, no blanks stand before that. -/
theorem Spot.Blanks.eq_of_ahead {c : Char} {cs : List Char} (h : p.Blanks q)
    (hahead : p.ahead = c :: cs) (hc : Text.isBlank c = false) : q = p := by
  obtain ⟨ws, hws, hall⟩ := h
  rcases ws with - | ⟨w, ws⟩
  · exact hws.unique (.refl p)
  · rw [hws.1] at hahead
    cases hahead
    rw [List.all_cons, hc] at hall
    cases hall

/-- A tagged form is spelled by a hash sign, a tag that begins with no trigger there, and a form. -/
theorem Spells.exists_of_tagged (hhost : host.LeavesTags) (hdot : '.' ∉ tag.name.toList)
    (h : Spells ⟨options, host⟩ loose F p (.tagged tag f) q) :
    ∃ c r t, p.Takes ['#'] r ∧ r.ahead.head? = some c ∧ HashTrigger.ofChar? c = none ∧
      (∃ G, SpellsNext ⟨options, host⟩ loose G r (.symbol tag) t) ∧
        ∃ G, SpellsNext ⟨options, host⟩ loose G t f q := by
  cases h with
  | token _ _ _ hread =>
    rcases atom_of_interpret hread with h | ⟨b, h⟩ | ⟨s, h⟩ | ⟨k, h⟩ <;> cases h
  | pattern _ _ hread => exact absurd (hhost.isValue_of_patterns hread) hdot
  | backquoted _ _ hread => exact absurd (Level.isValue_of_backquote hread) hdot
  | tagged hc hahead htrigger htag h hread =>
    rcases Level.eq_or_isValue_of_interpretTagged hhost hread with heq | hvalue
    · cases heq
      exact ⟨_, _, _, hc, hahead, htrigger, ⟨_, htag⟩, _, h⟩
    · exact absurd hvalue hdot

/-! ### What is read -/

/-- Whether a level reads a form from a text, whatever ends a token after it. -/
def ReadsText (setting : Setting) (F : Frame) (cs : List Char) (f : Form) : Prop :=
  ∃ c rest, cs = c :: rest ∧ opens c = true ∧ ∀ tail, (∀ d ∈ tail.head?, endsToken d = true) →
    Triple true (State.Past · F (rest ++ tail)) (Level.start (.nesting F.remaining) setting c)
      fun step s => step = .form f ∧ s.At F tail

variable {setting : Setting} {cs tail : List Char}

/-- A text that is read so is read behind blanks, by any number of levels. -/
theorem ReadsText.triple_run (h : ReadsText setting F cs f) (ws : List Char)
    (hws : ws.all Text.isBlank = true) (htail : ∀ d ∈ tail.head?, endsToken d = true) :
    Triple true (State.Before · F (ws ++ (cs ++ tail)))
      ((FormReader.nesting (F.remaining + 1)).run setting none) fun out s =>
        out = .form f ∧ s.At F tail := by
  obtain ⟨c, rest, rfl, hopens, hstart⟩ := h
  have hread : (FormReader.nesting (F.remaining + 1)).run setting none =
      (Level.read (.nesting F.remaining) setting none : Read Outcome) := rfl
  have hopen : ¬ (some c == none) = true := by simp
  rw [hread, Level.read_eq]
  refine .bind_eq (triple_nextForm hws (isBlank_of_opens hopens)) (.ite_false hopen ?_)
  exact .bind_eq (hstart tail htail) (.pure fun _ hs => ⟨rfl, hs⟩)

/-- It is read one level further down as well. -/
theorem ReadsText.triple_nested (h : ReadsText setting F cs f) (ws : List Char)
    (hws : ws.all Text.isBlank = true) (htail : ∀ d ∈ tail.head?, endsToken d = true) :
    Triple true (State.Before · F.up (ws ++ (cs ++ tail)))
      (Level.nested (.nesting (F.remaining + 1)) setting) fun g s => g = f ∧ s.At F.up tail := by
  refine triple_descend (Q := fun g s => g = f ∧ s.At F tail)
    (.bind_eq (h.triple_run ws hws htail) (.pure fun _ hs => ⟨rfl, hs⟩)) ?_ ?_
  · exact fun _ hs => ⟨hs.ne_zero, hs.down⟩
  · exact fun _ _ hg => ⟨hg.1, hg.2.up⟩

/-- The text of a symbol is read as it, if it is a token of it. -/
theorem readsText_symbol {s : Symbol} (h : s.IsToken setting.host.resolver) :
    ReadsText setting F (Form.symbol s).chars (.symbol s) := by
  obtain ⟨hplain, hread⟩ := h
  rw [Form.chars_symbol]
  rcases hcs : s.toText.toList with - | ⟨c, rest⟩
  · rw [hcs] at hplain
    cases hplain
  · have htext : String.ofList (c :: rest) = s.toText := by rw [← hcs, String.ofList_toList]
    rw [hcs] at hplain
    refine ⟨c, rest, rfl, (opens_of_isPlain hplain).1, fun tail htail => ?_⟩
    refine Level.triple_start_token hplain htail ?_
    rw [htext, hread]
    exact .pure fun _ hs => ⟨rfl, hs⟩

/-- The text of any string is read as it, with any host. -/
theorem readsText_string (text : String) :
    ReadsText setting F (Form.string text).chars (.string text) :=
  ⟨'"', _, Form.chars_string text, by decide, fun _ _ => triple_start_string text⟩

/-- The text of a number is read as it, with any host. -/
theorem readsText_number {n : Number} (hnormal : n.IsNormal) (hdigits : n.isInDigits = true)
    (hfaithful : n.isFaithful = true) :
    ReadsText setting F (Form.number n).chars (.number n) := by
  have hread := (Number.ofToken?_spelling_iff hnormal hdigits).2 hfaithful
  have htoken := Number.isToken_spelling hdigits
  obtain ⟨c, rest, hcs⟩ := htoken.exists_cons
  have htext : String.ofList (c :: rest) = n.spelling := by rw [← hcs, String.ofList_toList]
  rw [hcs] at htoken
  exact ⟨c, rest, (Form.chars_number n).trans hcs, (opens_of_isToken htoken).1, fun _ htail =>
    triple_start_number_of_ofToken? htoken (htext ▸ hread) htail⟩

/-- A tag and its form behind a hash sign. -/
theorem readsText_tagged (htag : ReadsText setting F tag.toText.toList (.symbol tag))
    (hf : ReadsText setting F f.chars f) (htrigger : tag.isTag = true)
    (hread : Level.interpretTagged setting F.inConditional tag f = .ok g) :
    ReadsText setting F.up (Form.tagged tag f).chars g := by
  have hspace : ∀ tail : List Char, ∀ d ∈ (' ' :: tail).head?, endsToken d = true := by
    rintro tail _ ⟨⟩
    decide
  refine ⟨'#', tag.toText.toList ++ ' ' :: f.chars, Form.chars_tagged tag f, by decide,
    fun tail htail => ?_⟩
  have hstart : Level.start (.nesting F.up.remaining) setting '#' =
      Level.hash (.nesting F.up.remaining) setting := rfl
  have hfirst := (htag.triple_nested [] rfl (hspace (f.chars ++ tail))).pre
    fun _ hs => State.At.before hs
  have hsecond := (hf.triple_nested [' '] rfl htail).pre fun _ hs => State.At.before hs
  obtain ⟨c, rest, hcs, -⟩ := htag
  rw [Symbol.isTag, hcs] at htrigger
  have hnone : HashTrigger.ofChar? c = none := Option.isNone_iff_eq_none.1 htrigger
  rw [hcs] at hfirst
  rw [hstart, hcs, List.cons_append, List.cons_append, List.append_assoc]
  refine .bind_eq ((triple_nextCharacter c).pre fun _ hs => hs.at) ?_
  rw [hnone]
  -- the character that was looked at is handed back for the tag
  refine .bind (triple_unread c) fun _ => .bind_eq hfirst (.bind_eq hsecond ?_)
  refine .bind (triple_scopes fun _ hs => hs.1) fun scopes => .of_and fun hscopes => ?_
  have hconditional : scopes.inConditional = F.inConditional := hscopes
  rw [hconditional, hread]
  exact .pure fun _ hs => ⟨rfl, hs⟩

/-- A symbol, string or integer that is spelled is read from its text. -/
theorem SpellsNext.readsText (hhost : host.LeavesTags) (hkeep : options.trivia = .keep)
    (hf : f.isScalar = true) (h : SpellsNext ⟨options, host⟩ loose F p f q) (G : Frame) :
    ReadsText ⟨options, host⟩ G f.chars f := by
  cases f with
  | symbol s =>
    obtain ⟨_, -, h⟩ := h.exists_spells hkeep rfl
    exact readsText_symbol (h.isToken_of_symbol hhost)
  | string text => exact readsText_string text
  | number n =>
    cases n with
    | int _ | big _ => exact readsText_number trivial rfl rfl
    | _ => cases hf
  | _ => cases hf

end FormTree
