import FormTree.Proofs.Form.Readable
import FormTree.Proofs.Reader.Tagged
import FormTree.Proofs.Session.Place

/-!
# Tagged forms written and read again

With a host that leaves tags alone, a tagged form of a symbol, a string or an integer is read back
from its text unless its tag begins with a character that begins a construct of its own after a hash
sign. A tag may begin like that where blanks stand before it; in the text of the form there are
none.
-/

namespace FormTree.Session

open Read

variable {options : Options} {host : Host} {p q : Session} {f g : Form} {tag : Symbol}

/-! ### From forms to texts -/

/-- A session that reads anything has a policy for evaluation. -/
theorem evaluation_ne_of_readOpt {out : Option Form} (h : readOpt p = .ok out q) :
    p.host.evaluation ≠ .unknown := by
  intro hunknown
  rw [readOpt, if_pos hunknown] at h
  cases h

/-- A text that levels read as a form is read in one call. -/
theorem exists_readOpt_of_readsText {cs : List Char} (heval : p.host.evaluation ≠ .unknown)
    (hp : p.state.At outermost cs) (h : ReadsText p.setting outermost cs f) :
    ∃ q, readOpt p = .ok (some f) q ∧ q.state.cursor.pending = [] := by
  have hremaining : p.state.remaining = outermost.remaining := (State.frame_eq_iff.1 hp.1).2.2
  have hbefore : p.state.Before outermost ([] ++ (cs ++ [])) := by
    rw [List.nil_append, List.append_nil]
    exact hp.before
  have htail : ∀ d ∈ ([] : List Char).head?, endsToken d = true := nofun
  obtain ⟨_, s, hs, rfl, hend⟩ := (h.triple_run [] rfl htail).exists_ok hbefore
  have hrun : p.reader.run p.setting none p.state = .ok (.form f) s := by
    rw [reader, hremaining, hs]
  refine ⟨{ p with state := s }, ?_, hend.2⟩
  rw [readOpt, if_neg heval, hrun]

/-- A tagged form of a scalar has a text. -/
theorem emit?_tagged_of_isScalar (tag : Symbol) (hf : f.isScalar = true) :
    (Form.tagged tag f).emit? = some (Form.tagged tag f).spelling := by
  have hoverflows : f.overflows = false :=
    Form.overflows_of_isFaithful (Form.isFaithful_of_isScalar hf)
  exact Form.emit?_eq_some_iff.2 ⟨hoverflows, rfl⟩

/-- The text of a tagged form of a scalar is read if its tag begins with no trigger there. -/
theorem exists_readOpt_emit_of_isTag (hhost : host.LeavesTags) (hkeep : options.trivia = .keep)
    (heval : host.evaluation ≠ .unknown) (hdot : '.' ∉ tag.name.toList) (hf : f.isScalar = true)
    {a b : Spot} (h : SpellsNext ⟨options, host⟩ true outermost a (.tagged tag f) b)
    (htag : tag.isTag = true) :
    ∃ q, readOpt (ofCursor (.ofText (Form.tagged tag f).spelling) options host) =
        .ok (some (.tagged tag f)) q ∧ q.state.cursor.pending = [] := by
  obtain ⟨_, -, h⟩ := h.exists_spells hkeep rfl
  obtain ⟨_, _, _, -, -, -, ⟨_, hfirst⟩, _, hsecond⟩ := h.exists_of_tagged hhost hdot
  have hread : Level.interpretTagged ⟨options, host⟩ false tag f = .ok (.tagged tag f) :=
    Level.interpretTagged_of_leavesTags hhost hdot false f
  let below : Frame := ⟨false, 0, 255⟩
  have htext : ReadsText ⟨options, host⟩ below.up (Form.tagged tag f).chars (.tagged tag f) := by
    refine readsText_tagged ?_ (hsecond.readsText hhost hkeep hf below) htag hread
    rw [← Form.chars_symbol]
    exact hfirst.readsText hhost hkeep rfl below
  refine exists_readOpt_of_readsText heval ⟨rfl, ?_⟩ htext
  rw [← Form.toList_spelling]
  exact Cursor.at_ofText _

/-! ### From texts to forms -/

/-- A tagged form that is read from the text of one shows that its tag is one there. -/
theorem isTag_of_readOpt_emit (hhost : host.LeavesTags) (hkeep : options.trivia = .keep)
    (hdot : '.' ∉ tag.name.toList)
    (h : readOpt (ofCursor (.ofText (Form.tagged tag f).spelling) options host) =
      .ok (some (.tagged tag g)) q) : tag.isTag = true := by
  have hahead : (Spot.ofText (Form.tagged tag f).spelling).ahead =
      '#' :: (tag.toText.toList ++ ' ' :: f.chars) :=
    (Form.toList_spelling _).trans (Form.chars_tagged tag f)
  obtain ⟨b, -, -, hspells⟩ := exists_spellsNext_of_readOpt (standsIn_ofText _ options host) h
  obtain ⟨a, hblanks, hspells⟩ := hspells.exists_spells hkeep rfl
  obtain rfl := hblanks.eq_of_ahead hahead (by decide)
  obtain ⟨c, r, _, hhash, hhead, htrigger, -⟩ := hspells.exists_of_tagged hhost hdot
  have hrest : tag.toText.toList ++ ' ' :: f.chars = r.ahead :=
    (List.cons.inj (hahead.symm.trans hhash.1)).2
  rw [Symbol.isTag]
  rcases hcs : tag.toText.toList with - | ⟨d, cs⟩
  · rfl
  · rw [← hrest, hcs] at hhead
    obtain rfl : d = c := Option.some.inj hhead
    rw [List.head?_cons, Option.all_some, htrigger]
    rfl

/-- **The text of a tagged form.** With a host that leaves tags alone, a tagged form of a symbol, a
string or an integer that was read after any calls, with trivia kept, has a text. It is read from
its text as a form that says the same, with nothing left, if and only if no construct begins with a
hash sign and the first character of the tag. -/
theorem exists_readOpt_emit_tagged_iff (hhost : host.LeavesTags) (hkeep : options.trivia = .keep)
    (text : String) (rs : List Request)
    (h : readOpt ((ofCursor (.ofText text) options host).after rs) = .ok (some (.tagged tag f)) q)
    (hdot : '.' ∉ tag.name.toList) (hf : f.isScalar = true) :
    ∃ emitted, (Form.tagged tag f).emit? = some emitted ∧
      ((∃ g r, readOpt (ofCursor (.ofText emitted) options host) = .ok (some g) r ∧
        (Form.tagged tag f).same g = true ∧ r.state.cursor.pending = []) ↔ tag.isTag = true) := by
  refine ⟨_, emit?_tagged_of_isScalar tag hf, ?_⟩
  constructor
  · rintro ⟨g, r, hg, hsame, -⟩
    cases g with
    | tagged u g =>
      obtain ⟨htag, -⟩ := Bool.and_eq_true_iff.1 hsame
      obtain rfl : tag = u := eq_of_beq htag
      exact isTag_of_readOpt_emit hhost hkeep hdot hg
    | _ => cases hsame
  · intro htag
    have hsetting : ((ofCursor (.ofText text) options host).after rs).setting = ⟨options, host⟩ :=
      setting_after _ rs
    have heval := evaluation_ne_of_readOpt h
    -- the form was spelled in its text, which is where its tag is known to be a token from
    obtain ⟨a, -, ha⟩ := standsInText_after rs (standsIn_ofText text options host)
    obtain ⟨b, -, -, hspells⟩ := exists_spellsNext_of_readOpt ha h
    rw [hsetting] at hspells
    have hhosts : ((ofCursor (.ofText text) options host).after rs).host = host :=
      congrArg Setting.host hsetting
    rw [hhosts] at heval
    obtain ⟨r, hr, hend⟩ := exists_readOpt_emit_of_isTag hhost hkeep heval hdot hf hspells htag
    refine ⟨.tagged tag f, r, hr, Form.same_of_core_eq ?_ rfl, hend⟩
    exact Bool.and_eq_true_iff.2 ⟨htag, Form.isFaithful_of_isScalar hf⟩

/-- A scalar under a tag is the only form that equals it. -/
theorem exists_eq_ok_of_gives_same {r : EStateM.Result ReadError Session (Option Form)}
    (tag : Symbol) (f : Form) (hf : f.isScalar = true)
    (h : gives (·.any (Form.tagged tag f).same) r = true) :
    ∃ q, r = .ok (some (.tagged tag f)) q := by
  obtain ⟨out, q, rfl, hout⟩ := exists_of_gives h
  obtain ⟨g, rfl, hsame⟩ := (Option.any_eq_true _ _).1 hout
  cases g with
  | tagged u g =>
    obtain ⟨htag, hg⟩ := Bool.and_eq_true_iff.1 hsame
    obtain rfl : tag = u := eq_of_beq htag
    obtain rfl : g = f := Form.eq_of_same hf hg
    exact ⟨q, rfl⟩
  | _ => cases hsame

/-- A tag with a namespace is read back, one that begins like a comment is not. -/
theorem readOpt_emit_tagged_qualified_and_shebang :
    (∃ q, readOpt ((ofCursor (.ofText ") # a/b c") .standard (.tagging .lenient)).after [.read]) =
        .ok (some (.tagged ⟨some "a", "b"⟩ (.symbol (.simple "c")))) q ∧
      ∃ text, (Form.tagged ⟨some "a", "b"⟩ (.symbol (.simple "c"))).emit? = some text ∧
        ∃ g r, readOpt (ofCursor (.ofText text) .standard (.tagging .lenient)) = .ok (some g) r ∧
          (Form.tagged ⟨some "a", "b"⟩ (.symbol (.simple "c"))).same g = true ∧
            r.state.cursor.pending = []) ∧
    ∃ q, readOpt ((ofCursor (.ofText "# !a 1") .standard (.tagging .lenient)).after []) =
        .ok (some (.tagged (.simple "!a") (.number (.int 1)))) q ∧
      ∃ text, (Form.tagged (.simple "!a") (.number (.int 1))).emit? = some text ∧
        ¬ ∃ g r, readOpt (ofCursor (.ofText text) .standard (.tagging .lenient)) = .ok (some g) r ∧
          (Form.tagged (.simple "!a") (.number (.int 1))).same g = true ∧
            r.state.cursor.pending = [] := by
  have htags := Host.leavesTags_tagging .lenient
  constructor
  · obtain ⟨q, h⟩ := exists_eq_ok_of_gives_same ⟨some "a", "b"⟩ (.symbol (.simple "c")) rfl
      (by decide +kernel : gives _ (readOpt
        ((ofCursor (.ofText ") # a/b c") .standard (.tagging .lenient)).after [.read])) = true)
    obtain ⟨text, htext, hiff⟩ :=
      exists_readOpt_emit_tagged_iff htags rfl _ _ h (by decide) rfl
    exact ⟨q, h, text, htext, hiff.2 (by decide)⟩
  · obtain ⟨q, h⟩ := exists_eq_ok_of_gives_same (.simple "!a") (.number (.int 1)) rfl
      (by decide +kernel : gives _ (readOpt
        ((ofCursor (.ofText "# !a 1") .standard (.tagging .lenient)).after [])) = true)
    obtain ⟨text, htext, hiff⟩ :=
      exists_readOpt_emit_tagged_iff htags rfl _ _ h (by decide) rfl
    refine ⟨q, h, text, htext, fun hread => ?_⟩
    exact absurd (hiff.1 hread) (by decide)

end FormTree.Session
