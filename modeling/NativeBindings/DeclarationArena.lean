import NativeBindings.DeclarationTree

/-!
# Declaration arenas

A declaration tree can be kept in two tables, one for its namespaces and one for its types. A node is
known by its place in its table and refers to its children by theirs. New nodes go to the end of
their table. Pruning cuts nodes off from the others and leaves them in the table, so a table also
has nodes that are in the tree no longer.

Nothing in the tables keeps a node from standing in two places, or below itself. So a walk over an
arena goes down to some depth at most. A walk that would have to go further, or that comes to a number
without a node, has no result.

## Main definitions

- `DeclarationArena.insert` — adds a member unless it is known, refused or badly placed
- `Walk` — a walk over an arena, which notes the nodes that it visits
- `Walk.foldNamespace` — what is computed from all nodes at or below a namespace
- `Walk.pruneNamespace` — cuts off the nodes without members at or below a namespace
-/

namespace NativeBindings

/-- A namespace of an arena, with the numbers of its children by their identities. -/
structure NamespaceCell where
  name : String
  children : List (Symbol × Nat)
  types : List (Symbol × Nat)

/-- A type of an arena, with the numbers of its nested types by their identities. -/
structure TypeCell (α : Type) where
  type : EnclosingType
  nested : List (Symbol × Nat)
  members : List (Symbol × α)

/-- There is nothing in the namespace. -/
def NamespaceCell.isEmpty (cell : NamespaceCell) : Bool :=
  cell.children.isEmpty && cell.types.isEmpty

/-- There is nothing in the type. -/
def TypeCell.isEmpty {α : Type} (cell : TypeCell α) : Bool :=
  cell.nested.isEmpty && cell.members.isEmpty

/-- A node, known by its number. -/
inductive ArenaNode where
  | ofNamespace (number : Nat)
  | ofType (number : Nat)
  deriving DecidableEq

/-- The namespaces and types of a declaration tree in two tables. -/
structure DeclarationArena (α : Type) where
  /-- The pass that reports what is wrong with a container. -/
  pass : Pass
  /-- The namespaces; the global one is number zero. -/
  namespaces : List NamespaceCell
  types : List (TypeCell α)
  /-- Members that have been found wrong. -/
  refused : List Symbol

namespace DeclarationArena

variable {α : Type}

/-- The arena without members. -/
def empty (pass : Pass) : DeclarationArena α :=
  { pass, namespaces := [⟨"", [], []⟩], types := [], refused := [] }

/-- There is no node below the global namespace. -/
def isEmpty? (a : DeclarationArena α) : Option Bool := (a.namespaces[0]?).map (·.isEmpty)

/-- The member stands in a type of the table or has been found wrong. -/
def isKnown (a : DeclarationArena α) (member : Symbol) : Bool :=
  a.refused.contains member || a.types.any fun cell => cell.members.any (·.1 == member)

/-- Remembers that a member has been found wrong. -/
def refuse (a : DeclarationArena α) (member : Symbol) : DeclarationArena α :=
  if a.refused.contains member then a else { a with refused := a.refused ++ [member] }

/-! ## Insertion -/

/-- The arena with other children of a namespace. -/
def setChildrenOf (a : DeclarationArena α) (children : List (Symbol × Nat)) (number : Nat) :
    DeclarationArena α :=
  { a with namespaces := a.namespaces.modify number ({ · with children }) }

/-- Adds a namespace to the table. -/
def addNamespace (a : DeclarationArena α) (n : Namespace) : DeclarationArena α :=
  { a with namespaces := a.namespaces ++ [⟨n.name, [], []⟩] }

/-- The number of the namespace at the end of a path that begins in a namespace. The namespaces that
are missing are added. -/
def ensureNamespaces (a : DeclarationArena α) (number : Nat) :
    List Namespace → Option (Nat × DeclarationArena α)
  | [] => some (number, a)
  | n :: ns => do
    let cell ← a.namespaces[number]?
    match cell.children.lookup n.id with
    | some child => a.ensureNamespaces child ns
    | none =>
      let child := a.namespaces.length
      let grown := (a.setChildrenOf (cell.children ++ [(n.id, child)]) number).addNamespace n
      grown.ensureNamespaces child ns

/-- The types that stand directly in a node. -/
def typesOf? (a : DeclarationArena α) : ArenaNode → Option (List (Symbol × Nat))
  | .ofNamespace number => (a.namespaces[number]?).map (·.types)
  | .ofType number => (a.types[number]?).map (·.nested)

/-- The arena with other types directly in a node. -/
def setTypesOf (a : DeclarationArena α) (types : List (Symbol × Nat)) :
    ArenaNode → DeclarationArena α
  | .ofNamespace number => { a with namespaces := a.namespaces.modify number ({ · with types }) }
  | .ofType number => { a with types := a.types.modify number ({ · with nested := types }) }

/-- Adds a type to the table. -/
def addType (a : DeclarationArena α) (t : EnclosingType) : DeclarationArena α :=
  { a with types := a.types ++ [⟨t, [], []⟩] }

/-- The node at the end of a path of types that begins in a node, or the type of the path that has no
node and cannot be given one. The nodes before it that are missing are added. -/
def ensureTypes (a : DeclarationArena α) (node : ArenaNode) (depth : Nat) :
    List EnclosingType → Option (Except Obstacle ArenaNode × DeclarationArena α)
  | [] => some (.ok node, a)
  | t :: ts => do
    let types ← a.typesOf? node
    match types.lookup t.id with
    | some number => a.ensureTypes (.ofType number) (depth + 1) ts
    | none =>
      if t.isExtensible then
        let number := a.types.length
        let grown := (a.setTypesOf (types ++ [(t.id, number)]) node).addType t
        grown.ensureTypes (.ofType number) (depth + 1) ts
      else some (.error ⟨depth, t⟩, a)

/-- The node of a container, or the type that cannot be given one. -/
def ensure (a : DeclarationArena α) (c : Container) :
    Option (Except Obstacle ArenaNode × DeclarationArena α) := do
  let (number, a) ← a.ensureNamespaces 0 c.namespaces
  a.ensureTypes (.ofNamespace number) 0 c.types

/-- Adds a member to a type. -/
def addMember (a : DeclarationArena α) (number : Nat) (member : Symbol) (value : α) :
    DeclarationArena α :=
  { a with types := a.types.modify number fun cell =>
      { cell with members := cell.members ++ [(member, value)] } }

/-- Inserts a member, as into a tree. -/
def insert {σ : Type} (a : DeclarationArena α) (c : Container) (member : Symbol)
    (report : Diagnostic → σ → σ) (accept : σ → Option α × σ) (s : σ) :
    Option (Insertion × DeclarationArena α × σ) := do
  let (node, a) ← a.ensure c
  match node with
  | .error o => return (.rejected, a, report (DeclarationTree.obstacleDiagnostic a.pass c o) s)
  | .ok (.ofNamespace _) => return (.rejected, a, s)
  | .ok (.ofType number) =>
    let cell ← a.types[number]?
    if cell.members.any (·.1 == member) then return (.duplicate, a, s)
    else if a.refused.contains member then return (.rejected, a, s)
    else
      match accept s with
      | (some value, s') => return (.inserted, a.addMember number member value, s')
      | (none, s') => return (.rejected, a.refuse member, s')

end DeclarationArena

/-! ## Walks -/

/-- An arena that is walked over, with the nodes that have been visited. -/
structure ArenaWalk (α : Type) where
  arena : DeclarationArena α
  visited : List ArenaNode

/-- A walk over an arena, which has no result if it is to go too far down or comes to a number without
a node. -/
abbrev Walk (α β : Type) := StateT (ArenaWalk α) Option β

/-- A namespace as it is printed. -/
structure NamespaceText where
  items : List Fragment
  block : String → Fragment

namespace Walk

variable {α β γ : Type}

/-- Visits a namespace. -/
def visitNamespace (number : Nat) : Walk α NamespaceCell := fun w => do
  let cell ← w.arena.namespaces[number]?
  return (cell, { w with visited := w.visited ++ [.ofNamespace number] })

/-- Visits a type. -/
def visitType (number : Nat) : Walk α (TypeCell α) := fun w => do
  let cell ← w.arena.types[number]?
  return (cell, { w with visited := w.visited ++ [.ofType number] })

/-- What is computed from a type and all types nested in it. -/
def foldType (onType : TypeCell α → List β → β) : Nat → Nat → Walk α β
  | 0, _ => fun _ => none
  | depth + 1, number => do
    let cell ← visitType number
    let nested ← (cell.nested.map (·.2)).mapM (foldType onType depth)
    return onType cell nested

/-- What is computed from a namespace, its types and its child namespaces. -/
def foldNamespace (onType : TypeCell α → List β → β)
    (onNamespace : NamespaceCell → List β → List γ → γ) : Nat → Nat → Walk α γ
  | 0, _ => fun _ => none
  | depth + 1, number => do
    let cell ← visitNamespace number
    let types ← (cell.types.map (·.2)).mapM (foldType onType depth)
    let children ← (cell.children.map (·.2)).mapM (foldNamespace onType onNamespace depth)
    return onNamespace cell types children

/-- Changes a namespace, which is returned as it is then. -/
def changeNamespace (number : Nat) (f : NamespaceCell → NamespaceCell) : Walk α NamespaceCell :=
  fun w => do
    let cell ← w.arena.namespaces[number]?
    let namespaces := w.arena.namespaces.set number (f cell)
    return (f cell, { w with arena := { w.arena with namespaces } })

/-- Changes a type, which is returned as it is then. -/
def changeType (number : Nat) (f : TypeCell α → TypeCell α) : Walk α (TypeCell α) :=
  fun w => do
    let cell ← w.arena.types[number]?
    let types := w.arena.types.set number (f cell)
    return (f cell, { w with arena := { w.arena with types } })

/-- The entries without those of some numbers. -/
def without (gone : List Nat) (entries : List (Symbol × Nat)) : List (Symbol × Nat) :=
  entries.filter fun entry => !gone.contains entry.2

/-- Cuts off the types nested in a type that have no member at or below them. Tells whether nothing
is left in the type. -/
def pruneType : Nat → Nat → Walk α Bool
  | 0, _ => fun _ => none
  | depth + 1, number => do
    let cell ← visitType number
    let gone ← (cell.nested.map (·.2)).filterM (pruneType depth)
    let cell ← changeType number fun cell => { cell with nested := without gone cell.nested }
    return cell.isEmpty

/-- Cuts off the namespaces and types below a namespace that have no member at or below them. Tells
whether nothing is left in the namespace. -/
def pruneNamespace : Nat → Nat → Walk α Bool
  | 0, _ => fun _ => none
  | depth + 1, number => do
    let cell ← visitNamespace number
    let gone ← (cell.children.map (·.2)).filterM (pruneNamespace depth)
    let cell ← changeNamespace number fun cell =>
      { cell with children := without gone cell.children }
    let gone ← (cell.types.map (·.2)).filterM (pruneType depth)
    let cell ← changeNamespace number fun cell => { cell with types := without gone cell.types }
    return cell.isEmpty

/-- The members of all types, those of a type before those of its nested types. -/
def entries (depth : Nat) : Walk α (List (Symbol × α)) :=
  foldNamespace (fun cell nested => cell.members ++ nested.flatten)
    (fun _ types children => types.flatten ++ children.flatten) depth 0

/-- A block for a type, with its members before its nested types. -/
def typeBlock (p : TreePrinter α) (cell : TypeCell α) (nested : List Fragment) : Fragment :=
  let members := cell.members.map fun (_, m) => .sequence (p.member m)
  .braced (p.typeHeader cell.type) (Fragment.separated (members ++ nested))

/-- The items of a namespace with a blank line between them, and its block behind a qualifier. A
namespace that holds nothing but one child has no block of its own: the child's name is qualified
with it. -/
def namespaceText (p : TreePrinter α) (cell : NamespaceCell) (types : List Fragment)
    (children : List NamespaceText) : NamespaceText :=
  let items := Fragment.separated (types ++ children.map (·.block ""))
  { items
    block := fun qualifier =>
      let name := qualifier ++ cell.name
      match types, children with
      | [], [only] => only.block (name ++ ".")
      | _, _ => .braced (p.namespaceHeader name) items }

/-- The text of the global namespace and of everything below it. -/
def text (p : TreePrinter α) (depth : Nat) : Walk α NamespaceText :=
  foldNamespace (typeBlock p) (namespaceText p) depth 0

/-- Cuts off all nodes that have no member at or below them. -/
def prune (depth : Nat) : Walk α Bool := pruneNamespace depth 0

end Walk

namespace DeclarationArena

variable {α : Type}

/-- The number of all nodes in the tables. No walk goes further down, unless there is a node below
itself. -/
def size (a : DeclarationArena α) : Nat := a.namespaces.length + a.types.length

/-- The members in the order in which they are printed. -/
def members? (a : DeclarationArena α) : Option (List α) :=
  ((Walk.entries a.size).run ⟨a, []⟩).map fun (entries, _) => entries.map (·.2)

/-- The arena as generated text. -/
def fragments? (a : DeclarationArena α) (p : TreePrinter α) : Option (List Fragment) :=
  ((Walk.text p a.size).run ⟨a, []⟩).map (·.1.items)

/-- The arena without the nodes that have no members at or below them. -/
def prune? (a : DeclarationArena α) : Option (DeclarationArena α) :=
  ((Walk.prune a.size).run ⟨a, []⟩).map (·.2.arena)

end DeclarationArena
end NativeBindings
