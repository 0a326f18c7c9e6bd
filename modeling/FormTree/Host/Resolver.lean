import FormTree.Symbol

/-!
# Namespaces

Keywords written with two colons are qualified by the current namespace or by the one that an alias
stands for. A **namespace table** is a fixed answer to both questions: aliases come before the names
of known namespaces, and the target of an alias is known.
-/

namespace FormTree

/-- What is known about namespaces while reading. -/
structure Resolver where
  /-- the current namespace, if any -/
  current? : Option Symbol
  /-- the namespace that an alias or the name of a namespace stands for -/
  resolve? : String → Option Symbol

/-- A fixed table of namespaces. -/
structure NamespaceTable where
  current : String
  /-- aliases with their targets, newest first -/
  aliases : List (String × String)
  known : List String
  deriving Repr, Inhabited

namespace NamespaceTable

/-- The table that knows the current namespace only. -/
def ofCurrent (current : String) : NamespaceTable := ⟨current, [], [current]⟩

/-- Adds an alias, which makes its target known. -/
def withAlias (t : NamespaceTable) (short ns : String) : NamespaceTable :=
  { t with aliases := (short, ns) :: t.aliases, known := ns :: t.known }

/-- Adds a known namespace. -/
def withNamespace (t : NamespaceTable) (ns : String) : NamespaceTable :=
  { t with known := ns :: t.known }

/-- The namespace that a name stands for. -/
def resolve? (t : NamespaceTable) (name : String) : Option Symbol :=
  match t.aliases.lookup name with
  | some ns => some (.simple ns)
  | none => if t.known.contains name then some (.simple name) else none

/-- The table as a resolver. -/
def toResolver (t : NamespaceTable) : Resolver := ⟨some (.simple t.current), t.resolve?⟩

end NamespaceTable

/-- The resolver of the default host, which knows its current namespace only. -/
def Resolver.standard : Resolver := (NamespaceTable.ofCurrent "user").toResolver

/-- The resolver without any namespace. -/
def Resolver.none : Resolver := ⟨Option.none, fun _ => Option.none⟩

end FormTree
