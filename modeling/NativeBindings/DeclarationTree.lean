import NativeBindings.Declaration.Container
import NativeBindings.Diagnostic
import NativeBindings.Fragment

/-!
# Declaration trees

A declaration tree holds members below the namespaces and types that contain them. Nodes are added
on the way to a member, in the order in which they are first needed, and are numbered in that order.

## Main definitions

- `TypeForest`, `NamespaceForest` — sibling nodes with all that stands below them
- `DeclarationTree.insert` — adds a member unless it is known, refused or badly placed
- `DeclarationTree.prune` — leaves out nodes without members below them
- `DeclarationTree.members` — the members in the order in which they are printed
- `DeclarationTree.fragments` — the tree as generated text
-/

namespace NativeBindings

/-- Sibling types: the first with its members and nested types, and the others. -/
inductive TypeForest (α : Type) where
  | none
  | node (number : Nat) (type : EnclosingType) (members : List (Symbol × α))
      (nested siblings : TypeForest α)

/-- Sibling namespaces: the first with its types and child namespaces, and the others. -/
inductive NamespaceForest (α : Type) where
  | none
  | node (number : Nat) (namespaceDecl : Namespace) (types : TypeForest α)
      (children siblings : NamespaceForest α)

/-- A type that cannot be extended, with its depth in a container. -/
structure Obstacle where
  depth : Nat
  type : EnclosingType
  deriving DecidableEq

namespace TypeForest

variable {α : Type}

def isNone : TypeForest α → Bool
  | none => true
  | node .. => false

/-- The entries of all nodes, those of a type before those of its nested types. -/
def entries : TypeForest α → List (Symbol × α)
  | none => []
  | node _ _ members nested siblings => members ++ nested.entries ++ siblings.entries

/-- The outermost type of a path that has no node yet and cannot be given one. -/
def obstacle? (depth : Nat) : List EnclosingType → TypeForest α → Option Obstacle
  | [], _ => Option.none
  | t :: ts, none => ((t :: ts).zipIdx depth).findSome? fun (t, depth) =>
      if t.isExtensible then Option.none else some ⟨depth, t⟩
  | t :: ts, node _ type _ nested siblings =>
    if type.id = t.id then nested.obstacle? (depth + 1) ts
    else siblings.obstacle? depth (t :: ts)

/-- Nodes for the types of a path, up to the first that cannot be extended. -/
def grow (next : Nat) : List EnclosingType → TypeForest α × Nat
  | [] => (none, next)
  | t :: ts =>
    if t.isExtensible then
      let (nested, next') := grow (next + 1) ts
      (node next t [] nested none, next')
    else (none, next)

/-- Adds the nodes of a path that are missing, up to the first that cannot be extended. -/
def ensure (next : Nat) : List EnclosingType → TypeForest α → TypeForest α × Nat
  | [], f => (f, next)
  | t :: ts, none => grow next (t :: ts)
  | t :: ts, node number type members nested siblings =>
    if type.id = t.id then
      let (nested', next') := nested.ensure next ts
      (node number type members nested' siblings, next')
    else
      let (siblings', next') := siblings.ensure next (t :: ts)
      (node number type members nested siblings', next')

/-- The members of the type at the end of a path. -/
def membersAt? : List EnclosingType → TypeForest α → Option (List (Symbol × α))
  | [], _ => Option.none
  | _ :: _, none => Option.none
  | t :: ts, node _ type members nested siblings =>
    if type.id = t.id then
      if ts.isEmpty then some members else nested.membersAt? ts
    else siblings.membersAt? (t :: ts)

/-- Adds a member to the type at the end of a path. -/
def place (member : Symbol) (value : α) : List EnclosingType → TypeForest α → TypeForest α
  | [], f => f
  | _ :: _, none => none
  | t :: ts, node number type members nested siblings =>
    if type.id = t.id then
      if ts.isEmpty then node number type (members ++ [(member, value)]) nested siblings
      else node number type members (nested.place member value ts) siblings
    else node number type members nested (siblings.place member value (t :: ts))

/-- Leaves out the types without members at or below them. -/
def prune : TypeForest α → TypeForest α
  | none => none
  | node number type members nested siblings =>
    if members.isEmpty && nested.prune.isNone then siblings.prune
    else node number type members nested.prune siblings.prune

/-- The numbers of all nodes. -/
def numbers : TypeForest α → List Nat
  | none => []
  | node number _ _ nested siblings => number :: (nested.numbers ++ siblings.numbers)

/-- The numbers of the outermost nodes. -/
def topNumbers : TypeForest α → List Nat
  | none => []
  | node number _ _ _ siblings => number :: siblings.topNumbers

end TypeForest

namespace NamespaceForest

variable {α : Type}

def isNone : NamespaceForest α → Bool
  | none => true
  | node .. => false

/-- The entries of all nodes, those of types before those of child namespaces. -/
def entries : NamespaceForest α → List (Symbol × α)
  | none => []
  | node _ _ types children siblings => types.entries ++ children.entries ++ siblings.entries

/-- Nodes for the namespaces of a path. -/
def grow (next : Nat) : List Namespace → NamespaceForest α × Nat
  | [] => (none, next)
  | n :: ns =>
    let (children, next') := grow (next + 1) ns
    (node next n .none children none, next')

/-- Adds the nodes of a path that are missing. -/
def ensure (next : Nat) : List Namespace → NamespaceForest α → NamespaceForest α × Nat
  | [], f => (f, next)
  | n :: ns, none => grow next (n :: ns)
  | n :: ns, node number decl types children siblings =>
    if decl.id = n.id then
      let (children', next') := children.ensure next ns
      (node number decl types children' siblings, next')
    else
      let (siblings', next') := siblings.ensure next (n :: ns)
      (node number decl types children siblings', next')

/-- The types of the namespace at the end of a path. -/
def typesAt : List Namespace → NamespaceForest α → TypeForest α
  | [], _ => .none
  | _ :: _, none => .none
  | n :: ns, node _ decl types children siblings =>
    if decl.id = n.id then
      if ns.isEmpty then types else children.typesAt ns
    else siblings.typesAt (n :: ns)

/-- Replaces the types of the namespace at the end of a path. -/
def setTypesAt (new : TypeForest α) : List Namespace → NamespaceForest α → NamespaceForest α
  | [], f => f
  | _ :: _, none => none
  | n :: ns, node number decl types children siblings =>
    if decl.id = n.id then
      if ns.isEmpty then node number decl new children siblings
      else node number decl types (children.setTypesAt new ns) siblings
    else node number decl types children (siblings.setTypesAt new (n :: ns))

/-- Leaves out the types and namespaces without members at or below them. -/
def prune : NamespaceForest α → NamespaceForest α
  | none => none
  | node number decl types children siblings =>
    if types.prune.isNone && children.prune.isNone then siblings.prune
    else node number decl types.prune children.prune siblings.prune

/-- The numbers of all nodes. -/
def numbers : NamespaceForest α → List Nat
  | none => []
  | node number _ _ children siblings => number :: (children.numbers ++ siblings.numbers)

/-- The numbers of all types in the namespaces. -/
def typeNumbers : NamespaceForest α → List Nat
  | none => []
  | node _ _ types children siblings =>
    types.numbers ++ children.typeNumbers ++ siblings.typeNumbers

end NamespaceForest

/-- Members below their namespaces and types. -/
structure DeclarationTree (α : Type) where
  /-- The pass that reports what is wrong with a container. -/
  pass : Pass
  /-- The types of the global namespace. -/
  types : TypeForest α
  /-- The namespaces of the global namespace. -/
  namespaces : NamespaceForest α
  /-- The number of the next namespace; the global one is number zero. -/
  nextNamespace : Nat
  /-- The number of the next type. -/
  nextType : Nat
  /-- Members that have been found wrong. -/
  refused : List Symbol

/-- What became of a member that was to be inserted. -/
inductive Insertion where
  | inserted
  /-- The member is already there. -/
  | duplicate
  /-- The member or a type around it has been found wrong. -/
  | rejected
  deriving DecidableEq

/-- The member is in the tree afterwards. -/
def Insertion.isPresent : Insertion → Bool
  | inserted | duplicate => true
  | rejected => false

namespace DeclarationTree

variable {α : Type}

/-- The tree without members. -/
def empty (pass : Pass) : DeclarationTree α :=
  { pass, types := .none, namespaces := .none, nextNamespace := 1, nextType := 0, refused := [] }

/-- There is no node below the global namespace. -/
def isEmpty (t : DeclarationTree α) : Bool := t.types.isNone && t.namespaces.isNone

/-- The members with their identities, in the order in which they are printed. -/
def entries (t : DeclarationTree α) : List (Symbol × α) := t.types.entries ++ t.namespaces.entries

/-- The members in the order in which they are printed. -/
def members (t : DeclarationTree α) : List α := t.entries.map (·.2)

def memberCount (t : DeclarationTree α) : Nat := t.members.length

/-- The member has been inserted or found wrong. -/
def isKnown (t : DeclarationTree α) (member : Symbol) : Bool :=
  t.refused.contains member || t.entries.any (·.1 == member)

/-- Remembers that a member has been found wrong. -/
def refuse (t : DeclarationTree α) (member : Symbol) : DeclarationTree α :=
  if t.refused.contains member then t else { t with refused := t.refused ++ [member] }

/-- The types of a namespace. -/
def typesAt (t : DeclarationTree α) (path : List Namespace) : TypeForest α :=
  if path.isEmpty then t.types else t.namespaces.typesAt path

/-- The tree with other types in a namespace. -/
def setTypesAt (t : DeclarationTree α) (path : List Namespace) (new : TypeForest α) :
    DeclarationTree α :=
  if path.isEmpty then { t with types := new }
  else { t with namespaces := t.namespaces.setTypesAt new path }

/-- The tree with the namespaces of a path. -/
def ensureNamespaces (t : DeclarationTree α) (path : List Namespace) : DeclarationTree α :=
  let (namespaces, next) := t.namespaces.ensure t.nextNamespace path
  { t with namespaces, nextNamespace := next }

/-- The tree with the nodes of a container, up to the first type that cannot be extended. -/
def ensure (t : DeclarationTree α) (c : Container) : DeclarationTree α :=
  let t := t.ensureNamespaces c.namespaces
  let (types, next) := (t.typesAt c.namespaces).ensure t.nextType c.types
  { t.setTypesAt c.namespaces types with nextType := next }

/-- The outermost type of a container that has no node yet and cannot be given one. -/
def obstacle? (t : DeclarationTree α) (c : Container) : Option Obstacle :=
  (t.typesAt c.namespaces).obstacle? 0 c.types

/-- What the members of a pass are called. -/
def contentName : Pass → String
  | .imports => "native imports"
  | .constants => "formatted constant members"

/-- The report of a type that cannot be extended. -/
def obstacleDiagnostic (pass : Pass) (c : Container) (o : Obstacle) : Diagnostic :=
  let name := c.qualifiedName (o.depth + 1)
  let content := contentName pass
  { pass
    problem := .unsupportedTypeDeclaration
    message := s!"The type declaration of \"{name}\" must be a 'partial' type in order for it to contain {content} or contain nested types containing {content}"
    location := o.type.location }

/-- Adds a member to the innermost type of its container. -/
def place (t : DeclarationTree α) (c : Container) (member : Symbol) (value : α) :
    DeclarationTree α :=
  t.setTypesAt c.namespaces ((t.typesAt c.namespaces).place member value c.types)

/-- Inserts a member. The nodes of its container are added first; a type that cannot be extended is
reported. A member that is known is left as it is, any other is shown to `accept`, which keeps its
own state and answers with the value to store, if any. -/
def insert {σ : Type} (t : DeclarationTree α) (c : Container) (member : Symbol)
    (report : Diagnostic → σ → σ) (accept : σ → Option α × σ) (s : σ) :
    Insertion × DeclarationTree α × σ :=
  let grown := t.ensure c
  match t.obstacle? c with
  | some o => (.rejected, grown, report (obstacleDiagnostic t.pass c o) s)
  | none =>
    match (grown.typesAt c.namespaces).membersAt? c.types with
    | none => (.rejected, grown, s)
    | some members =>
      if members.any (·.1 == member) then (.duplicate, grown, s)
      else if t.refused.contains member then (.rejected, grown, s)
      else
        match accept s with
        | (some value, s') => (.inserted, grown.place c member value, s')
        | (none, s') => (.rejected, grown.refuse member, s')

/-- Leaves out every node without members at or below it. -/
def prune (t : DeclarationTree α) : DeclarationTree α :=
  { t with types := t.types.prune, namespaces := t.namespaces.prune }

end DeclarationTree

/-- How the parts of a tree are printed. -/
structure TreePrinter (α : Type) where
  namespaceHeader : String → String
  typeHeader : EnclosingType → String
  member : α → List Fragment

namespace TreePrinter

variable {α : Type}

/-- A block for each type, with its members before its nested types. -/
def typeBlocks (p : TreePrinter α) : TypeForest α → List Fragment
  | .none => []
  | .node _ type members nested siblings =>
    .braced (p.typeHeader type)
        (Fragment.separated (members.map (fun (_, m) => .sequence (p.member m)) ++ p.typeBlocks nested)) ::
      p.typeBlocks siblings

/-- A block for each namespace, with its types before its child namespaces. A namespace that holds
nothing but one child has no block of its own: the child's name is qualified with it. -/
def namespaceBlocks (p : TreePrinter α) (qualifier : String) : NamespaceForest α → List Fragment
  | .none => []
  | .node _ decl types children siblings =>
    let name := qualifier ++ decl.name
    let blocks := match types, children with
      | .none, .node _ _ _ _ .none => p.namespaceBlocks (name ++ ".") children
      | _, _ =>
        [.braced (p.namespaceHeader name)
          (Fragment.separated (p.typeBlocks types ++ p.namespaceBlocks "" children))]
    blocks ++ p.namespaceBlocks qualifier siblings

end TreePrinter

/-- The tree as generated text, with a blank line between siblings. -/
def DeclarationTree.fragments {α : Type} (t : DeclarationTree α) (p : TreePrinter α) :
    List Fragment :=
  Fragment.separated (p.typeBlocks t.types ++ p.namespaceBlocks "" t.namespaces)

end NativeBindings
