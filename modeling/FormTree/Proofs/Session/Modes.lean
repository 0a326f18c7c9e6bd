import FormTree.Proofs.Session.Legal

/-!
# Each mode of conditionals reads what the one before it reads

Conditionals are refused, or they are read, or they are read and tagged forms inside of them are
kept without consulting anyone. A file that is read in one of these modes is read in the modes after
it as well, and is the same file. Where conditionals are refused a file that is read has none in it;
and where they are read the default host keeps a tagged form as it is, if it accepts it at all.
-/

namespace FormTree

/-- The place of a mode in the order in which they accept more. -/
def ConditionalMode.rank : ConditionalMode → Nat
  | .disabled => 0
  | .allow => 1
  | .preserve => 2

/-- Modes are ordered by how much they accept. -/
instance : LE ConditionalMode := ⟨fun m n => m.rank ≤ n.rank⟩

instance (m n : ConditionalMode) : Decidable (m ≤ n) :=
  inferInstanceAs (Decidable (m.rank ≤ n.rank))

variable {regex : RegexEngine} {m n : ConditionalMode}

/-- Only the last mode keeps tagged forms, and no mode comes after it. -/
theorem ConditionalMode.eq_preserve_of_le (hmn : m ≤ n) (hm : m = .preserve) : n = .preserve := by
  subst hm
  cases n <;> first | rfl | exact absurd hmn (by decide)

/-- A mode that refuses no conditionals comes after none that does. -/
theorem ConditionalMode.ne_disabled_of_le (hmn : m ≤ n) (hm : m ≠ .disabled) : n ≠ .disabled := by
  rintro rfl
  cases m <;> first | exact hm rfl | exact absurd hmn (by decide)

/-- The default host gives the same for a tagged form in a later mode, unless it refuses it in the
first one. -/
theorem Level.sameAnswer_interpretTagged (regex : RegexEngine) (hmn : m ≤ n) (options : Options)
    (inConditional : Bool) (tag : Symbol) (f : Form) :
    SameAnswer (fun _ => True) (fun _ => True)
      (interpretTagged (.standard regex { options with conditionals := m }) inConditional tag f)
      (interpretTagged (.standard regex { options with conditionals := n }) inConditional tag
        f) := by
  rcases hhere : interpretTagged (.standard regex { options with conditionals := m })
    inConditional tag f with e | g
  · exact .excused trivial
  · suffices hthere : interpretTagged (.standard regex { options with conditionals := n })
        inConditional tag f = .ok g by
      rw [hthere]
      exact .ok trivial
    obtain ⟨rfl, -⟩ := interpretTagged_eq_ok hhere
    by_cases hkeep : (inConditional && n = .preserve) = true
    · rw [interpretTagged, if_pos hkeep]
    · -- neither mode keeps the form unseen, so that both ask the same readers
      have hkeep' : ¬ (inConditional && m = .preserve) = true := by
        simp only [Bool.and_eq_true, decide_eq_true_eq] at hkeep ⊢
        exact fun h => hkeep ⟨h.1, ConditionalMode.eq_preserve_of_le hmn h.2⟩
      rw [interpretTagged, if_neg hkeep'] at hhere
      rw [interpretTagged, if_neg hkeep]
      exact hhere

/-- What readings in two modes have in common, unless the first one fails. -/
def Read.Invariant.modes (hmn : m ≤ n) (options : Options) :
    Read.Invariant (fun _ => True) (.standard regex { options with conditionals := m })
      (.standard regex { options with conditionals := n }) where
  trivia_eq := rfl
  evaluation_eq := rfl
  resolver_eq := rfl
  scopes _ := True
  forms _ := True
  conditionals := by
    by_cases hm : m = .disabled
    · exact .inr ⟨hm, trivial⟩
    · exact .inl (iff_of_false hm (ConditionalMode.ne_disabled_of_le hmn hm))
  patterns_eq := rfl
  patterns _ := trivial
  tagged tag _ _ := Level.sameAnswer_interpretTagged regex hmn options _ tag _
  enter _ _ := trivial
  gensyms _ _ := trivial
  hereditary := .trivial _

namespace Session

/-- **Each mode of conditionals reads what the one before it reads.** A file that is read from a
text in one mode is read from it in every mode after that, with the same left unread; it is the same
file in everything that it records. -/
theorem exists_readToEnd_of_le (regex : RegexEngine) (hmn : m ≤ n) (text : String)
    (options : Options) {f : Form} {q : Session}
    (h : readToEnd (ofText regex text { options with conditionals := m }) = .ok f q) :
    ∃ r, readToEnd (ofText regex text { options with conditionals := n }) = .ok f r ∧
      r.state = q.state := by
  have hcompared : Compared (Read.Invariant.modes hmn options).comparison
      (ofText regex text { options with conditionals := m })
      (ofText regex text { options with conditionals := n }) :=
    ⟨rfl, rfl, ⟨rfl, ⟨rfl, trivial⟩, rfl, rfl⟩⟩
  have hread := readToEnd_agrees _ _ hcompared
  rw [h] at hread
  obtain ⟨g, r, hr, ⟨rfl, -⟩, hqr⟩ := hread.exists_of_ok
  exact ⟨r, hr, (Read.Invariant.state_eq hqr.state).symm⟩

/-- A text without conditionals is read in all modes, and an instant inside of a conditional is kept
whether its reader is asked or not. -/
theorem exists_readToEnd_of_le_instant :
    (∃ f q, ConditionalMode.disabled ≤ .preserve ∧
      readToEnd (ofText .lenient "(a ^b c)" { Options.standard with conditionals := .disabled }) =
          .ok f q ∧
        ∃ r, readToEnd (ofText .lenient "(a ^b c)"
          { Options.standard with conditionals := .preserve }) = .ok f r ∧ r.state = q.state) ∧
      ∃ f q, ConditionalMode.allow ≤ .preserve ∧
        readToEnd (ofText .lenient "#?(:clj #inst \"2024\")"
          { Options.standard with conditionals := .allow }) = .ok f q ∧
          ∃ r, readToEnd (ofText .lenient "#?(:clj #inst \"2024\")"
            { Options.standard with conditionals := .preserve }) = .ok f r ∧ r.state = q.state := by
  obtain ⟨f, q, hf, -⟩ := exists_of_gives
    (by decide +kernel : gives (fun _ => true) (readToEnd (ofText .lenient "(a ^b c)"
      { Options.standard with conditionals := .disabled })) = true)
  obtain ⟨g, r, hg, -⟩ := exists_of_gives
    (by decide +kernel : gives (fun _ => true) (readToEnd (ofText .lenient "#?(:clj #inst \"2024\")"
      { Options.standard with conditionals := .allow })) = true)
  have hdisabled : ConditionalMode.disabled ≤ .preserve := by decide
  have hallow : ConditionalMode.allow ≤ .preserve := by decide
  exact ⟨⟨f, q, hdisabled, hf, exists_readToEnd_of_le _ hdisabled _ .standard hf⟩,
    g, r, hallow, hg, exists_readToEnd_of_le _ hallow _ .standard hg⟩

end Session

end FormTree
