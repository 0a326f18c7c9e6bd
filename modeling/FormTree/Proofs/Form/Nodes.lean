import FormTree.Form.Access
import FormTree.Reader.Quoted

/-!
# Nodes of a form

The **nodes** of a form are the form itself and the nodes of the forms that it is put around or
holds as elements. What the metadata of a list holds is no node. The **depth** of a form counts the
forms around its innermost node.

A node is **well-formed** if it is as the constructs of the reader require. This looks at one node
at a time, but for function literals, which must not hold others at any depth.
-/

namespace FormTree.Form

mutual

/-- The form and all forms inside of it. -/
def nodes : Form → List Form
  | .tagged tag f => .tagged tag f :: f.nodes
  | .marked mark f => .marked mark f :: f.nodes
  | .annotated kind note object position =>
    .annotated kind note object position :: (note.nodes ++ object.nodes)
  | .backquoted f gensyms => .backquoted f gensyms :: f.nodes
  | .list info es => .list info es :: nodesOf es
  | .group kind es => .group kind es :: nodesOf es
  | f => [f]

/-- The nodes of several forms. -/
def nodesOf : List Form → List Form
  | [] => []
  | f :: rest => f.nodes ++ nodesOf rest

end

mutual

/-- How deeply a form nests: nothing for an atom, and one more than what is deepest inside for a
sequence or what is put around a form. -/
def depth : Form → Nat
  | .tagged _ f | .marked _ f | .backquoted f _ => f.depth + 1
  | .annotated _ note object _ => max note.depth object.depth + 1
  | .list _ es | .group _ es => depthOf es + 1
  | _ => 0

/-- The depth of the deepest of several forms. -/
def depthOf : List Form → Nat
  | [] => 0
  | f :: rest => max f.depth (depthOf rest)

end

/-- Whether a form is a function literal. -/
def IsFunction (f : Form) : Prop := ∃ body, f = .marked .function body

/-- Whether a form is a note of that kind: a symbol or string as a tag, a keyword as a flag, or a
map. -/
inductive IsNote : NoteKind → Form → Prop
  | symbol (s : Symbol) : IsNote .tag (.symbol s)
  | string (s : String) : IsNote .tag (.string s)
  | keyword (k : Keyword) : IsNote .flag (.keyword k)
  | map (es : List Form) : IsNote .map (.group .map es)

/-- Whether forms are the branches of a conditional: features, which are keywords other than `:else`
and `:none`, and forms in turn, which are lists or vectors if they are to be spliced. -/
inductive AreBranches (splicing : Bool) : List Form → Prop
  | nil : AreBranches splicing []
  | cons {k : Keyword} {f : Form} {rest : List Form}
    (hkeyword : k ≠ .simple "else" ∧ k ≠ .simple "none")
    (hform : splicing = true → f.isSequential = true) (hrest : AreBranches splicing rest) :
    AreBranches splicing (.keyword k :: f :: rest)

/-- Whether a node is as the reader requires. -/
def IsWellFormed : Form → Prop
  | .group .map es => (dataOf es).length % 2 = 0
  | .group (.conditional splicing _) es => AreBranches splicing (dataOf es)
  | .marked .function body =>
    (∃ info es, body = .list info es) ∧ ∀ g ∈ body.nodes, ¬ g.IsFunction
  | .annotated kind note object _ => IsNote kind note ∧ object.isAnnotatable = true
  | .backquoted f _ => f.isLiteral = false ∧ ∀ g, f ≠ .marked .unquoteSplicing g
  | .charLiteral token c => Scan.charForToken token = .ok c
  | .arg (.index n) => 1 ≤ n
  | .comment _ text => ∀ c ∈ text.toList, c ≠ '\n' ∧ c ≠ '\r'
  | .char _ | .group .file _ => False
  | _ => True

/-- A form is a node of itself, the first one. -/
theorem self_mem_nodes (f : Form) : f ∈ f.nodes := by
  cases f <;> simp [nodes]

@[simp] theorem nodesOf_singleton (f : Form) : nodesOf [f] = f.nodes := List.append_nil _

@[simp] theorem nodesOf_append (es fs : List Form) :
    nodesOf (es ++ fs) = nodesOf es ++ nodesOf fs := by
  induction es with
  | nil => rfl
  | cons e es ih => rw [List.cons_append, nodesOf, nodesOf, ih, List.append_assoc]

/-- The nodes of forms are those of each of them. -/
theorem mem_nodesOf {g : Form} {es : List Form} : g ∈ nodesOf es ↔ ∃ f ∈ es, g ∈ f.nodes := by
  induction es with
  | nil => simp [nodesOf]
  | cons f rest ih => simp [nodesOf, ih]

end FormTree.Form
