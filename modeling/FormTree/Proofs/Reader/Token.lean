import FormTree.Proofs.Form.Legal
import Mathlib.Data.List.TakeDrop

/-!
# What plain tokens denote

What a token denotes has the text of the token, but for keywords with two colons, which have the
namespace that they were resolved to.
-/

namespace FormTree

namespace Symbol

/-- The text of what was split is the text. -/
@[simp] theorem toText_parse (text : String) : (parse text).toText = text := by
  rw [parse]
  split
  · rfl
  · have hsplit := List.takeWhile_append_dropWhile (p := (· != '/')) (l := text.toList)
    rw [List.span_eq_takeWhile_dropWhile]
    rcases hrest : text.toList.dropWhile (· != '/') with - | ⟨c, name⟩
    · rfl
    · have hc := List.head?_dropWhile_not (· != '/') text.toList
      rw [hrest] at hc hsplit
      obtain rfl : c = '/' := by simpa using hc
      rw [← String.toList_inj]
      simpa [toText] using hsplit

/-- The name of a symbol ends its text. -/
theorem mem_toText_of_mem_name {s : Symbol} {c : Char} (h : c ∈ s.name.toList) :
    c ∈ s.toText.toList := by
  rw [toText]
  split
  · exact h
  · simp [h]

end Symbol

@[simp] theorem Keyword.toText_parse (text : String) : (parse text).toText = ":" ++ text := by
  rw [Keyword.toText, parse, Symbol.toText_parse]

/-- A token denotes an atom. -/
theorem atom_of_interpret {resolver : Resolver} {text : String} {f : Form}
    (h : Token.interpret resolver text = .ok f) :
    f = .nil ∨ (∃ b, f = .bool b) ∨ (∃ s, f = .symbol s) ∨ ∃ k, f = .keyword k := by
  have hnamed {cs : List Char} (h : Token.named? resolver cs = some f) :
      (∃ s, f = .symbol s) ∨ ∃ k, f = .keyword k := by
    unfold Token.named? at h
    split at h
    · split at h
      · obtain ⟨k, -, rfl⟩ := Option.map_eq_some_iff.1 h
        exact .inr ⟨k, rfl⟩
      · cases h
        exact .inr ⟨_, rfl⟩
      · cases h
        exact .inl ⟨_, rfl⟩
    · cases h
  rcases Token.named?_of_interpret h with hread | rfl | ⟨b, rfl⟩
  · exact .inr (.inr (hnamed hread))
  · exact .inl rfl
  · exact .inr (.inl ⟨b, rfl⟩)

namespace Token

/-- The default host knows the namespace `user` only. -/
theorem toText_of_resolved? {text : String} {k : Keyword}
    (h : resolved? Resolver.standard text = some k) :
    k.toText = ":user/" ++ (Symbol.parse text).name := by
  have huser : ∀ ns : Symbol, ns.name = "user" → ∀ name,
      (Keyword.mk ⟨some ns.name, name⟩).toText = ":user/" ++ name := by
    intro ns hns name
    rw [hns, ← String.toList_inj]
    simp [Keyword.toText, Symbol.toText]
  obtain ⟨ns, hns, rfl⟩ := Option.map_eq_some_iff.1 h
  refine huser ns ?_ _
  split at hns
  · rename_i short _
    simp only [Resolver.standard, NamespaceTable.ofCurrent, NamespaceTable.toResolver,
      NamespaceTable.resolve?, List.lookup_nil] at hns
    split at hns <;> cases hns
    rename_i hknown
    have hshort : short = "user" := by simpa using hknown
    exact hshort
  · cases hns
    rfl

/-- No character of a token ends one. -/
theorem endsToken_eq_false_of_isPlain {cs : List Char} (h : isPlain cs = true) :
    ∀ c ∈ cs, endsToken c = false := by
  rcases cs with - | ⟨first, rest⟩
  · cases h
  · simp only [isPlain, Bool.and_eq_true, Bool.not_eq_true', List.all_eq_true] at h
    obtain ⟨⟨⟨⟨-, htrigger⟩, hblank⟩, -⟩, hrest⟩ := h
    intro c hc
    rcases List.mem_cons.1 hc with rfl | hc
    · rw [endsToken, isTerminating, htrigger, hblank]
      rfl
    · exact hrest c hc

/-- A colon may begin any token. -/
theorem isPlain_colon {cs : List Char} (h : ∀ c ∈ cs, endsToken c = false) :
    isPlain (':' :: cs) = true := by
  have hall : cs.all (!endsToken ·) = true := List.all_eq_true.2 fun c hc => by simp [h c hc]
  rw [isPlain, hall]
  rfl

/-- A plain token denotes something legal. -/
theorem legal_of_interpret {regex : RegexEngine} {options : Options} {F : Frame}
    {text : String} {f : Form} (hplain : isPlain text.toList = true)
    (h : interpret Resolver.standard text = .ok f) : Legal regex options F f := by
  rcases named?_of_interpret h with hg | rfl | ⟨b, rfl⟩
  · rw [named?.eq_def] at hg
    obtain ⟨-, hg⟩ := Option.ite_none_right_eq_some.1 hg
    split at hg
    · rename_i rest htext
      -- two colons: what is stored has the namespace `user` in front, whose text is plain too
      obtain ⟨k, hk, rfl⟩ := Option.map_eq_some_iff.1 hg
      refine .keyword F ?_
      have huser : ":user/".toList = ':' :: ['u', 's', 'e', 'r', '/'] := by decide
      rw [toText_of_resolved? hk, String.toList_append, huser, List.cons_append]
      refine isPlain_colon fun c hc => ?_
      rcases List.mem_append.1 hc with hc | hc
      · have hall : (['u', 's', 'e', 'r', '/'].all fun c => !endsToken c) = true := by decide
        simpa using List.all_eq_true.1 hall c hc
      · have hrest : c ∈ rest := by simpa using Symbol.mem_toText_of_mem_name hc
        exact endsToken_eq_false_of_isPlain hplain c (by simp [htext, hrest])
    · rename_i rest _ htext
      cases hg
      refine .keyword F ?_
      rw [Keyword.toText_parse]
      simpa [htext] using hplain
    · cases hg
      refine .symbol F ?_ ?_
      · simpa using hplain
      · simpa using h
  · exact .nil F
  · exact .bool F b

end Token

end FormTree
