import FormTree.Form.Lookup
import FormTree.Proofs.Form.Erased

/-!
# Looking things up in forms without trivia

What a lookup finds in a form without its trivia. An index counts data, the entries of a map are
pairs of data, and a name is that of a keyword or a string, so that all of this is blind to trivia.
A key that is a form is compared as a form, with the trivia inside it: two keys may differ in
nothing else, and without trivia the first of them is found. So a lookup without trivia finds the
same as before unless it passed over a key that it would have found.
-/

namespace FormTree.Form

variable {f g : Form} {es fs : List Form}

/-! ### Equality -/

/-- Equal forms are of the same kind, so that both are trivia or neither. -/
theorem isTrivia_eq_of_same (h : f.same g = true) : f.isTrivia = g.isTrivia := by
  cases f with
  | marked m f =>
    cases g with
    | marked n g =>
      obtain ⟨hmark, -⟩ := Bool.and_eq_true_iff.1 h
      obtain rfl := eq_of_beq hmark
      cases m <;> rfl
    | _ => cases h
  | _ => cases g <;> first | rfl | cases h

mutual

/-- Forms that say the same do so without their trivia. -/
theorem same_erased : ∀ {f g : Form}, f.same g = true → f.erased.same g.erased = true
  | .tagged t f, g, h => by
    cases g with
    | tagged u g =>
      obtain ⟨htag, h⟩ := Bool.and_eq_true_iff.1 h
      exact Bool.and_eq_true_iff.2 ⟨htag, same_erased h⟩
    | _ => cases h
  | .marked m f, g, h => by
    cases g with
    | marked n g =>
      obtain ⟨hmark, h⟩ := Bool.and_eq_true_iff.1 h
      exact Bool.and_eq_true_iff.2 ⟨hmark, same_erased h⟩
    | _ => cases h
  | .annotated k m f _, g, h => by
    cases g with
    | annotated l n g _ =>
      obtain ⟨h, hobject⟩ := Bool.and_eq_true_iff.1 h
      obtain ⟨hkind, hnote⟩ := Bool.and_eq_true_iff.1 h
      exact Bool.and_eq_true_iff.2
        ⟨Bool.and_eq_true_iff.2 ⟨hkind, same_erased hnote⟩, same_erased hobject⟩
    | _ => cases h
  | .backquoted f _, g, h => by
    cases g with
    | backquoted g _ =>
      have h : f.erased.same g.erased = true := same_erased h
      exact h
    | _ => cases h
  | .list _ es, g, h => by
    cases g with
    | list _ fs =>
      have h : sameAll (erasedAll es) (erasedAll fs) = true := sameAll_erasedAll h
      exact h
    | _ => cases h
  | .group a es, g, h => by
    cases g with
    | group b fs =>
      obtain ⟨hgroup, h⟩ := Bool.and_eq_true_iff.1 h
      exact Bool.and_eq_true_iff.2 ⟨hgroup, sameAll_erasedAll h⟩
    | _ => cases h
  -- atoms are erased to themselves
  | .nil, g, h | .bool _, g, h | .number _, g, h | .char _, g, h | .string _, g, h | .symbol _, g, h
  | .keyword _, g, h | .pattern _ _, g, h | .charLiteral _ _, g, h | .arg _, g, h
  | .comment _ _, g, h | .comma, g, h => by
    cases g <;> exact h

theorem sameAll_erasedAll : ∀ {es fs : List Form}, sameAll es fs = true →
    sameAll (erasedAll es) (erasedAll fs) = true
  | [], [], _ => rfl
  | f :: es, g :: fs, h => by
    obtain ⟨h, hrest⟩ := Bool.and_eq_true_iff.1 h
    rw [erasedAll, erasedAll, ← isTrivia_eq_of_same h]
    rcases f.isTrivia with - | -
    · exact Bool.and_eq_true_iff.2 ⟨same_erased h, sameAll_erasedAll hrest⟩
    · exact sameAll_erasedAll hrest

end

/-! ### One key -/

/-- The key without the trivia in it. -/
def Key.erased : Key → Key
  | .form f => .form f.erased
  | key => key

/-- The keys of a map. -/
def keys (f : Form) : List Form :=
  (f.entries?.getD []).map Prod.fst

/-- Whether a lookup under a form passes over no key of a map that says the same but for trivia. -/
def PassesOthers (f : Form) : Key → Prop
  | .form key => ∀ k ∈ f.keys.takeWhile (!·.same key), k.erased.same key.erased = false
  | _ => True

theorem pairsOf_map (m : Form → Form) (es : List Form) :
    pairsOf (es.map m) = (pairsOf es).map (Prod.map m m) := by
  fun_induction pairsOf es with
  | case1 a b rest ih => simp only [List.map_cons, pairsOf, ih, Prod.map]
  | case2 es hes =>
    rcases es with - | ⟨a, - | ⟨b, rest⟩⟩
    · rfl
    · rfl
    · exact absurd rfl (hes a b rest)

/-- The elements that indices count are data, so that only trivia inside of them is erased. -/
theorem indexed?_erased (f : Form) : f.erased.indexed? = f.indexed?.map (·.map erased) := by
  have hdata (es : List Form) : some (dataOf (erasedAll es)) = some ((dataOf es).map erased) := by
    rw [dataOf_erasedAll, erasedAll_eq_map]
  cases f with
  | list info es => exact hdata es
  | group g es => cases g <;> first | rfl | exact hdata es
  | _ => rfl

/-- The entries of a map are pairs of data, in the same order without the trivia. -/
theorem entries?_erased (f : Form) :
    f.erased.entries? = f.entries?.map (·.map (Prod.map erased erased)) := by
  cases f with
  | group g es =>
    cases g with
    | map =>
      change some (pairsOf (dataOf (erasedAll es))) = some _
      rw [dataOf_erasedAll, erasedAll_eq_map, pairsOf_map]
    | _ => rfl
  | _ => rfl

/-- A map without its trivia has the same entries, without theirs. -/
theorem findValue?_erased (p : Form → Bool) (f : Form) :
    f.erased.findValue? p = (f.findValue? fun key => p key.erased).map erased := by
  rw [findValue?, findValue?, entries?_erased]
  rcases f.entries? with - | entries
  · rfl
  · simp [List.find?_map, Function.comp_def]

/-- Whether a key answers to a name is seen at the key itself. -/
theorem answersTo_erased (name : String) (key : Form) :
    answersTo name key.erased = answersTo name key := by
  cases key <;> rfl

/-- Two searches find the same if the first one passes over nothing that the second one is for. -/
theorem find?_eq_of_passed {α : Type} {p q : α → Bool} (hpq : ∀ a, p a = true → q a = true) :
    ∀ {as : List α}, (∀ a ∈ as.takeWhile (!p ·), q a = false) → as.find? q = as.find? p
  | [], _ => rfl
  | a :: as, h => by
    rcases hp : p a with - | -
    · rw [List.takeWhile_cons_of_pos (by simp [hp])] at h
      obtain ⟨ha, has⟩ := List.forall_mem_cons.1 h
      rw [List.find?_cons_of_neg (by simp [ha]), List.find?_cons_of_neg (by simp [hp]),
        find?_eq_of_passed hpq has]
    · rw [List.find?_cons_of_pos (hpq a hp), List.find?_cons_of_pos hp]

/-- If no key is passed over that differs in trivia only, the first one that equals the key without
trivia is the first one that equals it with trivia. -/
theorem findValue?_same_erased {key : Form} (h : f.PassesOthers (.form key)) :
    (f.findValue? fun k => k.erased.same key.erased) = f.findValue? (same · key) := by
  rw [PassesOthers, keys] at h
  rw [findValue?, findValue?]
  rcases hentries : f.entries? with - | entries
  · rfl
  · rw [hentries, Option.getD_some, List.takeWhile_map, List.forall_mem_map] at h
    rw [Option.bind_some, Option.bind_some, find?_eq_of_passed (fun _ => same_erased) h]

/-- A lookup finds the same without trivia, unless it passed over a key that it would find then. -/
theorem get?_erased {key : Key} (h : f.PassesOthers key) :
    f.erased.get? key.erased = (f.get? key).map erased := by
  cases key with
  | index n =>
    change f.erased.indexed?.bind _ = (f.indexed?.bind _).map erased
    rw [indexed?_erased]
    rcases f.indexed? with - | es
    · rfl
    · simp
  | name name =>
    change f.erased.findValue? _ = (f.findValue? _).map erased
    rw [findValue?_erased]
    simp only [answersTo_erased]
  | form key =>
    have hfind : f.erased.findValue? (same · key.erased) =
        (f.findValue? (same · key)).map erased := by
      rw [findValue?_erased, findValue?_same_erased h]
    exact hfind

/-! ### Paths -/

/-- Whether no lookup along a path passes over a key that says the same but for trivia. -/
def PassesOthersAlong : Form → List Key → Prop
  | _, [] => True
  | f, key :: path => f.PassesOthers key ∧ ∀ g, f.get? key = some g → g.PassesOthersAlong path

/-- A path is followed key by key. -/
theorem getPath?_cons (f : Form) (key : Key) (path : List Key) :
    f.getPath? (key :: path) = (f.get? key).bind (·.getPath? path) := rfl

/-- **Lookups are blind to trivia.** A form without its trivia has, along a path of keys without
theirs, just what the form itself has along the path, without its trivia, if no lookup along the
path passes over a key that is the one looked up but for trivia. -/
theorem getPath?_erased (f : Form) (path : List Key) (h : f.PassesOthersAlong path) :
    f.erased.getPath? (path.map Key.erased) = (f.getPath? path).map erased := by
  induction path generalizing f with
  | nil => rfl
  | cons key path ih =>
    obtain ⟨hkey, hpath⟩ := h
    rw [List.map_cons, getPath?_cons, getPath?_cons, get?_erased hkey]
    rcases hg : f.get? key with - | g
    · rfl
    · exact ih g (hpath g hg)

/-- A key is passed over that has a comma in it, and the next one is found under itself: a comment
stands before its value, and a comma in that value. -/
theorem getPath?_erased_vector :
    (map [vector [ofInt 1, .comma], .nil, vector [ofInt 2], .comment .line "c",
        vector [.nil, .comma, .bool true]]).PassesOthersAlong [.form (vector [ofInt 2]), .index 1] ∧
      (map [vector [ofInt 1, .comma], .nil, vector [ofInt 2], .comment .line "c",
        vector [.nil, .comma, .bool true]]).erased.getPath? [.form (vector [ofInt 2]), .index 1] =
          some (.bool true) := by
  have h : (map [vector [ofInt 1, .comma], .nil, vector [ofInt 2], .comment .line "c",
      vector [.nil, .comma, .bool true]]).PassesOthersAlong
        [.form (vector [ofInt 2]), .index 1] := by
    refine ⟨show ∀ k ∈ List.takeWhile _ _, _ by decide, ?_⟩
    rintro _ ⟨⟩
    exact ⟨trivial, fun _ _ => trivial⟩
  exact ⟨h, (getPath?_erased _ _ h).trans rfl⟩

/-- A key with a comma in it is found under the vector without the comma only where the comma is
gone. -/
theorem getPath?_erased_ne_comma_in_key :
    (map [vector [ofInt 1, .comma], .bool true]).erased.getPath?
        ([.form (vector [ofInt 1])].map Key.erased) ≠
      ((map [vector [ofInt 1, .comma], .bool true]).getPath?
        [.form (vector [ofInt 1])]).map erased :=
  nofun

end FormTree.Form
