import FormTree.Proofs.Number.Grammar

/-!
# Integers with underscores

Which texts are read as an integer in a radix: a digit, more digits with underscores among them, and
a sign before all of that or none. The underscores count for nothing.
-/

namespace FormTree.Numeral

open Text

/-- Whether characters are digits with underscores among them or after them. -/
def isGrouped (radix : Nat) : List Char → Bool
  | [] => false
  | d :: rest => isDigitIn radix d && rest.all fun c => c == '_' || isDigitIn radix c

/-- The digits without the underscores. -/
def ungrouped (cs : List Char) : List Char := cs.filter (· != '_')

variable {radix : Nat} {cs body : List Char} {negative : Bool} {n : Int}

/-- An underscore does not come first. -/
theorem exists_cons_of_isGrouped (h : isGrouped radix cs = true) :
    ∃ d rest, cs = d :: rest ∧ isDigitIn radix d = true := by
  rcases cs with - | ⟨d, rest⟩
  · cases h
  · exact ⟨d, rest, rfl, (Bool.and_eq_true_iff.1 h).1⟩

/-- Nothing but digits and underscores is among digits with underscores. -/
theorem eq_underscore_or_isDigitIn (h : isGrouped radix cs = true) {c : Char} (hc : c ∈ cs) :
    c = '_' ∨ isDigitIn radix c = true := by
  rcases cs with - | ⟨d, rest⟩
  · cases hc
  · obtain ⟨hd, hrest⟩ := Bool.and_eq_true_iff.1 h
    rcases List.mem_cons.1 hc with rfl | hc
    · exact .inr hd
    · simpa using List.all_eq_true.1 hrest c hc

theorem isNumeral_of_isGrouped (h : isGrouped radix cs = true) (hscore : '_' ∉ cs) :
    isNumeral radix cs = true := by
  obtain ⟨d, rest, rfl, -⟩ := exists_cons_of_isGrouped h
  refine Bool.and_eq_true_iff.2 ⟨rfl, List.all_eq_true.2 fun c hc => ?_⟩
  rcases eq_underscore_or_isDigitIn h hc with rfl | hdigit
  · exact absurd hc hscore
  · exact hdigit

/-- There may be no underscores at all. -/
theorem isGrouped_of_isNumeral (h : isNumeral radix cs = true) : isGrouped radix cs = true := by
  obtain ⟨hne, hall⟩ := Bool.and_eq_true_iff.1 h
  rcases cs with - | ⟨d, rest⟩
  · cases hne
  · obtain ⟨hd, hrest⟩ := Bool.and_eq_true_iff.1 hall
    refine Bool.and_eq_true_iff.2 ⟨hd, List.all_eq_true.2 fun c hc => ?_⟩
    rw [List.all_eq_true.1 hrest c hc, Bool.or_true]

/-- Without underscores nothing is left out. -/
theorem ungrouped_of_notMem (h : '_' ∉ cs) : ungrouped cs = cs := by
  refine List.filter_eq_self.2 fun c hc => bne_iff_ne.2 ?_
  rintro rfl
  exact h hc

theorem ungrouped_of_isNumeral (h : isNumeral radix cs = true) : ungrouped cs = cs :=
  ungrouped_of_notMem fun hscore =>
    ne_of_isDigitIn (List.all_eq_true.1 (Bool.and_eq_true_iff.1 h).2 _ hscore) rfl rfl

/-- What digits with underscores denote after the sign. -/
theorem mapM_ungrouped (radix : Nat) (cs : List Char) :
    (if cs.isEmpty || cs.head? == some '_' then none
      else ((ungrouped cs).mapM (digitValue? radix)).map (ofDigits radix)) =
      if isGrouped radix cs then some (value radix (ungrouped cs)) else none := by
  rcases cs with - | ⟨c, rest⟩
  · rfl
  · by_cases hc : c = '_'
    · subst hc
      rfl
    · have hgrouped : (ungrouped (c :: rest)).all (isDigitIn radix) =
          isGrouped radix (c :: rest) := by
        simp [ungrouped, isGrouped, hc, List.all_filter, bne]
      rw [if_neg (by simpa using hc), mapM_digitValue?, hgrouped]
      split <;> rfl

/-- A plus sign before digits is read over. -/
theorem natural?_plus (radix : Nat) (cs : List Char) :
    natural? radix ('+' :: cs) =
      if isGrouped radix cs then some (value radix (ungrouped cs)) else none :=
  mapM_ungrouped radix cs

/-- Without a plus sign the text is digits with underscores, or nothing is read. -/
theorem natural?_of_head?_ne (h : cs.head? ≠ some '+') :
    natural? radix cs = if isGrouped radix cs then some (value radix (ungrouped cs)) else none := by
  rw [← mapM_ungrouped, natural?.eq_def]
  split
  · exact absurd rfl h
  · rfl

/-- A minus sign is read only where no plus sign follows it. -/
theorem integer?_minus (h : cs.head? ≠ some '+') :
    integer? radix ('-' :: cs) = (natural? radix cs).map fun n : Nat => -(n : Int) := by
  rw [integer?.eq_def]
  split
  · rename_i heq
    exact absurd (congrArg List.head? (List.cons.inj heq).2) h
  · rename_i heq
    rw [← (List.cons.inj heq).2]
    cases natural? radix cs <;> rfl
  · rename_i hnot
    exact (hnot cs rfl).elim

/-- Without a minus sign what is read is a natural number. -/
theorem integer?_of_head?_ne (h : cs.head? ≠ some '-') :
    integer? radix cs = (natural? radix cs).map fun n : Nat => (n : Int) := by
  rw [integer?.eq_def]
  split
  · exact absurd rfl h
  · exact absurd rfl h
  · cases natural? radix cs <;> rfl

/-- A text is read as an integer just if it is digits with underscores among them after an optional
sign. -/
theorem integer?_eq_some_iff : integer? radix cs = some n ↔
    ∃ negative body, IsSigned negative body cs ∧ isGrouped radix body = true ∧
      n = signedValue radix negative (ungrouped body) := by
  constructor
  · intro h
    by_cases hminus : cs.head? = some '-'
    · obtain ⟨rest, rfl⟩ := List.head?_eq_some_iff.1 hminus
      by_cases hplus : rest.head? = some '+'
      · obtain ⟨rest, rfl⟩ := List.head?_eq_some_iff.1 hplus
        cases h
      · rw [integer?_minus hplus, natural?_of_head?_ne hplus] at h
        obtain ⟨m, hm, rfl⟩ := Option.map_eq_some_iff.1 h
        obtain ⟨hgrouped, ⟨⟩⟩ := Option.ite_none_right_eq_some.1 hm
        exact ⟨true, rest, .minus rest, hgrouped, rfl⟩
    · rw [integer?_of_head?_ne hminus] at h
      obtain ⟨m, hm, rfl⟩ := Option.map_eq_some_iff.1 h
      by_cases hplus : cs.head? = some '+'
      · obtain ⟨rest, rfl⟩ := List.head?_eq_some_iff.1 hplus
        rw [natural?_plus] at hm
        obtain ⟨hgrouped, ⟨⟩⟩ := Option.ite_none_right_eq_some.1 hm
        exact ⟨false, rest, .plus rest, hgrouped, rfl⟩
      · rw [natural?_of_head?_ne hplus] at hm
        obtain ⟨hgrouped, ⟨⟩⟩ := Option.ite_none_right_eq_some.1 hm
        exact ⟨false, cs, .unsigned cs, hgrouped, rfl⟩
  -- no sign begins the body, so that only the first sign is taken for one
  · rintro ⟨negative, body, hsigned, hgrouped, rfl⟩
    have hhead {c : Char} (hc : isDigitIn radix c = false) : body.head? ≠ some c := by
      obtain ⟨d, rest, rfl, hd⟩ := exists_cons_of_isGrouped hgrouped
      rintro ⟨⟩
      rw [hc] at hd
      cases hd
    have hread : natural? radix body = some (value radix (ungrouped body)) := by
      rw [natural?_of_head?_ne (hhead rfl), if_pos hgrouped]
    cases hsigned with
    | unsigned =>
      rw [integer?_of_head?_ne (hhead rfl), hread]
      rfl
    | plus =>
      rw [integer?_of_head?_ne (by simp), natural?_plus, if_pos hgrouped]
      rfl
    | minus =>
      rw [integer?_minus (hhead rfl), hread]
      rfl

end FormTree.Numeral
