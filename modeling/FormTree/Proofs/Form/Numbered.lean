import FormTree.Proofs.Form.Nodes
import FormTree.Proofs.Number.Digits
import FormTree.Reader.Gensym
import Mathlib.Data.List.Nodup

/-!
# Numbers of generated symbols

A generated symbol has its number in its name, between two underscores and a fixed ending. Digits
are no underscores, so that the number can be read back from the end, whatever the symbol was
generated for: generated symbols with different numbers are different.

The symbols that are registered with a backquote are **numbered**: there is one for each of its
names, in the order of their first occurrence, with consecutive numbers. Nodes are numbered if each
of their backquotes is so and all symbols generated in them have numbers of their own from one
range. Ranges that follow one another make up one range, and that is all that is needed to put nodes
together.
-/

namespace FormTree

namespace Gensyms

/-! ### The number of a symbol -/

/-- The characters of a generated symbol. -/
theorem toList_fresh (s : Symbol) (n : Nat) :
    ∃ stem, (fresh s n).name.toList = stem ++ '_' :: Nat.toDigits 10 n ++ "__auto__".toList := by
  refine ⟨(s.name.toList.reverse.dropWhile (· == '#')).reverse ++ ['_'], ?_⟩
  simp [fresh, Symbol.simple, Nat.toList_repr]

/-- Digits behind an underscore are those behind the last one. -/
theorem eq_of_append_underscore {cs ds as bs : List Char} (has : as.all Text.isDigit = true)
    (hbs : bs.all Text.isDigit = true) (h : cs ++ '_' :: as = ds ++ '_' :: bs) : as = bs := by
  have hnotMem {es : List Char} (hes : es.all Text.isDigit = true) : '_' ∉ es :=
    fun hmem => absurd (List.all_eq_true.1 hes _ hmem) (by decide)
  -- if one text before the underscore were longer, its underscore would be a digit of the other
  rcases List.append_eq_append_iff.1 h with ⟨es, -, h⟩ | ⟨es, -, h⟩ <;> rcases es with - | ⟨e, es⟩
  · exact (List.cons.inj h).2
  · exact absurd ((List.cons.inj h).2 ▸ by simp) (hnotMem has)
  · exact (List.cons.inj h).2.symm
  · exact absurd ((List.cons.inj h).2 ▸ by simp) (hnotMem hbs)

/-- Generated symbols that are the same have the same number. -/
theorem eq_of_fresh_eq {s t : Symbol} {m n : Nat} (h : fresh s m = fresh t n) : m = n := by
  obtain ⟨stem, hs⟩ := toList_fresh s m
  obtain ⟨stem', ht⟩ := toList_fresh t n
  rw [h, ht] at hs
  have hdigits := eq_of_append_underscore (Numeral.all_toDigits n) (Numeral.all_toDigits m)
    (List.append_cancel_right hs)
  rw [← Numeral.value_toDigits m, ← hdigits, Numeral.value_toDigits]

/-! ### Registered symbols -/

/-- The symbols generated for some names, with the numbers after `l`. -/
def numbered (l : Nat) (names : List Symbol) : Gensyms :=
  ⟨(names.zipIdx (l + 1)).map fun p => (p.1, fresh p.1 p.2), l + names.length⟩

/-- A name added to others, unless it is one of them. -/
def addName (names : List Symbol) (s : Symbol) : List Symbol :=
  if s ∈ names then names else names ++ [s]

/-- No name is added twice. -/
theorem nodup_addName {names : List Symbol} (h : names.Nodup) (s : Symbol) :
    (addName names s).Nodup := by
  unfold addName
  split
  · exact h
  · rw [List.nodup_append_comm]
    exact List.nodup_cons.2 ⟨‹_›, h⟩

@[simp] theorem map_fst_numbered (l : Nat) (names : List Symbol) :
    (numbered l names).pairs.map Prod.fst = names := by
  rw [numbered, List.map_map]
  exact List.zipIdx_map_fst _ _

/-- Registering a symbol adds it to the names. -/
theorem register_numbered (l : Nat) (names : List Symbol) (s : Symbol) :
    (numbered l names).register s = numbered l (addName names s) := by
  have hlookup : ((numbered l names).pairs.lookup s).isSome = true ↔ s ∈ names := by
    conv_rhs => rw [← map_fst_numbered l names, List.mem_map]
    rw [List.lookup_isSome_iff]
    exact exists_congr fun p => and_congr_right fun _ => beq_iff_eq.trans eq_comm
  rw [register, addName, if_congr hlookup rfl rfl]
  split
  · rfl
  · have hnext : l + 1 + names.length = l + names.length + 1 := by omega
    rw [numbered, numbered, List.zipIdx_append, List.map_append, hnext, List.length_append]
    rfl

/-- The symbols generated for names are different. -/
theorem nodup_snd_numbered (l : Nat) (names : List Symbol) :
    ((numbered l names).pairs.map Prod.snd).Nodup := by
  have hnumbers : ((names.zipIdx (l + 1)).map Prod.snd).Nodup := by
    rw [List.zipIdx_map_snd]
    exact List.nodup_range' 1
  rw [numbered, List.map_map, List.Nodup, List.pairwise_map]
  exact (List.pairwise_map.1 hnumbers).imp fun hne heq => hne (eq_of_fresh_eq heq)

/-- They have the numbers after `l`. -/
theorem exists_fresh_of_mem_numbered {l : Nat} {names : List Symbol} {t : Symbol}
    (h : t ∈ (numbered l names).pairs.map Prod.snd) :
    ∃ s n, t = fresh s n ∧ l < n ∧ n ≤ l + names.length := by
  rw [numbered, List.map_map, List.mem_map] at h
  obtain ⟨⟨s, n⟩, hmem, rfl⟩ := h
  obtain ⟨hle, hlt, -⟩ := List.mem_zipIdx hmem
  exact ⟨s, n, rfl, by omega, by omega⟩

end Gensyms

namespace Form

mutual

/-- The names that a symbol is generated for in a backquoted form, as often as they occur. -/
def autos : Form → List Symbol
  | .symbol s => if Gensyms.isAuto s then [s] else []
  | .marked .unquote _ | .marked .unquoteSplicing _ | .backquoted _ _ => []
  | .marked _ f | .annotated _ _ f _ | .tagged _ f => f.autos
  | .list _ es | .group _ es => autosOf es
  | _ => []

/-- The names that symbols are generated for in some forms. -/
def autosOf : List Form → List Symbol
  | [] => []
  | f :: rest => f.autos ++ autosOf rest

end

/-- The names that a symbol is generated for in a backquoted form, in the order of their first
occurrence. -/
def autoNames (f : Form) : List Symbol := f.autos.foldl Gensyms.addName []

/-- Each name is there once. -/
theorem nodup_autoNames (f : Form) : f.autoNames.Nodup := by
  suffices h : ∀ (ss names : List Symbol), names.Nodup → (ss.foldl Gensyms.addName names).Nodup from
    h _ _ List.nodup_nil
  intro ss
  induction ss with
  | nil => exact fun _ h => h
  | cons s ss ih => exact fun names h => ih _ (Gensyms.nodup_addName h s)

mutual

/-- What is registered for a form are its names. -/
theorem collect_numbered (l : Nat) : ∀ (f : Form) (names : List Symbol),
    (Gensyms.numbered l names).collect f = .numbered l (f.autos.foldl Gensyms.addName names)
  | .symbol s, names => by
    rw [Gensyms.collect, autos]
    split
    · exact Gensyms.register_numbered l names s
    · rfl
  | .marked mark f, names => by
    cases mark <;> simp only [Gensyms.collect, autos] <;>
      first | rfl | exact collect_numbered l f names
  | .annotated _ _ f _, names => by
    simpa only [Gensyms.collect, autos] using collect_numbered l f names
  | .tagged _ f, names => by
    simpa only [Gensyms.collect, autos] using collect_numbered l f names
  | .list _ es, names => by
    simpa only [Gensyms.collect, autos] using collectAll_numbered l es names
  | .group _ es, names => by
    simpa only [Gensyms.collect, autos] using collectAll_numbered l es names
  | .backquoted _ _, _ | .nil, _ | .bool _, _ | .number _, _ | .char _, _ | .string _, _
  | .keyword _, _ | .pattern _ _, _ | .charLiteral _ _, _ | .arg _, _ | .comment _ _, _
  | .comma, _ => by
    simp only [Gensyms.collect, autos, List.foldl_nil]

theorem collectAll_numbered (l : Nat) : ∀ (es : List Form) (names : List Symbol),
    (Gensyms.numbered l names).collectAll es =
      .numbered l ((autosOf es).foldl Gensyms.addName names)
  | [], _ => by simp only [Gensyms.collectAll, autosOf, List.foldl_nil]
  | f :: rest, names => by
    rw [Gensyms.collectAll, collect_numbered l f names, collectAll_numbered l rest, autosOf,
      List.foldl_append]

end

/-- **Collecting gives one symbol for each name**, in the order of their first occurrence, with
consecutive numbers. -/
theorem collect_eq_numbered (l : Nat) (f : Form) :
    Gensyms.collect ⟨[], l⟩ f = .numbered l f.autoNames :=
  collect_numbered l f []

/-! ### Numbered nodes -/

/-- The symbols that are generated at a node. -/
def generated : Form → List Symbol
  | .backquoted _ gensyms => gensyms.map Prod.snd
  | _ => []

/-- Whether a list has no metadata but a position, and a backquote the symbols generated for its
names. -/
def IsOrderly : Form → Prop
  | .list info _ => ∃ position, info = .at? position
  | .backquoted f gensyms => ∃ l, gensyms = (Gensyms.numbered l f.autoNames).pairs
  | _ => True

/-- Whether some nodes are orderly and the symbols generated at them are all different, with numbers
above `l` and up to `m`. -/
structure Numbered (l m : Nat) (nodes : List Form) : Prop where
  le : l ≤ m
  orderly : ∀ f ∈ nodes, f.IsOrderly
  nodup : (nodes.flatMap generated).Nodup
  exists_fresh : ∀ t ∈ nodes.flatMap generated, ∃ s n, t = Gensyms.fresh s n ∧ l < n ∧ n ≤ m

namespace Numbered

variable {k l m n : Nat} {f : Form} {nodes rest : List Form}

/-- Without nodes nothing is generated, and any range will do. -/
theorem nil (h : l ≤ m) : Numbered l m [] := ⟨h, nofun, .nil, nofun⟩

/-- A range of numbers may be larger than it has to be. -/
theorem loosen (h : Numbered l m nodes) (hk : k ≤ l) (hn : m ≤ n) : Numbered k n nodes where
  le := by
    have := h.le
    omega
  orderly := h.orderly
  nodup := h.nodup
  exists_fresh t ht := by
    obtain ⟨s, i, rfl, hl, hm⟩ := h.exists_fresh t ht
    exact ⟨s, i, rfl, by omega, by omega⟩

/-- Ranges of numbers that follow one another are one range. -/
theorem append (hnodes : Numbered k l nodes) (hrest : Numbered l m rest) :
    Numbered k m (nodes ++ rest) where
  le := Nat.le_trans hnodes.le hrest.le
  orderly f h := (List.mem_append.1 h).elim (hnodes.orderly f) (hrest.orderly f)
  nodup := by
    rw [List.flatMap_append, List.nodup_append]
    refine ⟨hnodes.nodup, hrest.nodup, fun a ha b hb hab => ?_⟩
    obtain ⟨s, i, rfl, -, hi⟩ := hnodes.exists_fresh a ha
    obtain ⟨t, j, rfl, hj, -⟩ := hrest.exists_fresh b hb
    have := Gensyms.eq_of_fresh_eq hab
    omega
  exists_fresh t ht := by
    rw [List.flatMap_append] at ht
    exact (List.mem_append.1 ht).elim ((hnodes.loosen (Nat.le_refl k) hrest.le).exists_fresh t)
      ((hrest.loosen hnodes.le (Nat.le_refl m)).exists_fresh t)

/-- The order of nodes does not matter. -/
theorem perm (h : Numbered l m nodes) (hperm : nodes.Perm rest) : Numbered l m rest where
  le := h.le
  orderly f hf := h.orderly f (hperm.mem_iff.2 hf)
  nodup := (hperm.flatMap_right generated).nodup_iff.1 h.nodup
  exists_fresh t ht := h.exists_fresh t ((hperm.flatMap_right generated).mem_iff.2 ht)

/-- A node at which nothing is generated. -/
theorem cons (hnone : f.generated = []) (hf : f.IsOrderly) (h : Numbered l m nodes) :
    Numbered l m (f :: nodes) := by
  refine ⟨h.le, List.forall_mem_cons.2 ⟨hf, h.orderly⟩, ?_, ?_⟩ <;>
    rw [List.flatMap_cons, hnone, List.nil_append]
  · exact h.nodup
  · exact h.exists_fresh

/-- A backquote has the symbols with the next numbers. -/
theorem backquoted (h : Numbered l m f.nodes) :
    Numbered l (m + f.autoNames.length)
      (Form.backquoted f (Gensyms.numbered m f.autoNames).pairs).nodes := by
  have hgenerated : [Form.backquoted f (Gensyms.numbered m f.autoNames).pairs].flatMap generated =
      (Gensyms.numbered m f.autoNames).pairs.map Prod.snd := List.append_nil _
  have hnode : Numbered m (m + f.autoNames.length)
      [.backquoted f (Gensyms.numbered m f.autoNames).pairs] := by
    refine ⟨Nat.le_add_right _ _, List.forall_mem_singleton.2 ⟨m, rfl⟩, ?_, ?_⟩ <;>
      rw [hgenerated]
    · exact Gensyms.nodup_snd_numbered m f.autoNames
    · exact fun t => Gensyms.exists_fresh_of_mem_numbered
  exact (h.append hnode).perm (List.perm_append_singleton _ _)

end Numbered

end Form

end FormTree
