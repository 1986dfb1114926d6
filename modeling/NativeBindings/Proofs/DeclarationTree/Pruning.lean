import NativeBindings.Proofs.CSharp.TreePrinting

/-!
# Pruned declaration trees

Pruning takes out the nodes that have no member at or below them, also those that are left without
one only because everything below them goes. All other nodes stay in their order with the members
that they had, so that every block that is printed has a member in it.

## Main definitions

- `DeclarationTree.nodes` — the nodes of a tree, in the order in which they are printed
- `IsOccupiedBlock` — a block with a member in it
- `DeclarationTree.IsPruningOf` — a tree is another one without the nodes that have no member

## Main statements

- `DeclarationTree.isPruningOf_prune` — this is what pruning does
-/

namespace NativeBindings

variable {α : Type}

/-- A node of a tree. -/
structure TreeNode (α : Type) where
  /-- The namespaces and types on the way to the node, the innermost one being its own. -/
  place : Container
  number : ℕ
  /-- The members at or below the node. -/
  entries : List (Symbol × α)

/-- There is a member at or below the node. -/
def TreeNode.isOccupied (x : TreeNode α) : Bool := !x.entries.isEmpty

/-! ## Types -/

namespace TypeForest

variable {number : ℕ} {type : EnclosingType} {members : List (Symbol × α)}
  {nested siblings : TypeForest α}

/-- A type goes if there is no member at or below it. -/
theorem prune_of_eq_nil (h : members ++ nested.entries = []) :
    (node number type members nested siblings).prune = siblings.prune := by
  rw [List.append_eq_nil_iff] at h
  rw [prune, if_pos (by simp [h.1, isNone_iff, prune_eq_none_iff, h.2])]

theorem prune_of_ne_nil (h : members ++ nested.entries ≠ []) :
    (node number type members nested siblings).prune =
      node number type members nested.prune siblings.prune := by
  rw [prune, if_neg]
  intro hnone
  rw [Bool.and_eq_true, List.isEmpty_iff, isNone_iff, prune_eq_none_iff] at hnone
  exact h (List.append_eq_nil_iff.2 hnone)

/-- A pruned forest has nothing left to prune. -/
theorem prune_prune (f : TypeForest α) : f.prune.prune = f.prune := by
  induction f with
  | none => rfl
  | node number type members nested siblings ihNested ihSiblings =>
    by_cases h : members ++ nested.entries = []
    · rw [prune_of_eq_nil h, ihSiblings]
    · have hpruned : members ++ nested.prune.entries ≠ [] := by rwa [entries_prune]
      rw [prune_of_ne_nil h, prune_of_ne_nil hpruned, ihNested, ihSiblings]

/-- All nodes, below the types of a path. -/
def nodes (ns : List Namespace) (path : List EnclosingType) : TypeForest α → List (TreeNode α)
  | none => []
  | node number type members nested siblings =>
    ⟨⟨ns, path ++ [type]⟩, number, members ++ nested.entries⟩ ::
      (nested.nodes ns (path ++ [type]) ++ siblings.nodes ns path)

/-- The nodes of a pruned forest are the occupied ones. -/
theorem nodes_prune (ns : List Namespace) (path : List EnclosingType) (f : TypeForest α) :
    f.prune.nodes ns path = (f.nodes ns path).filter (·.isOccupied) := by
  induction f generalizing path with
  | none => rfl
  | node number type members nested siblings ihNested ihSiblings =>
    rw [nodes, List.filter_cons, List.filter_append, ← ihNested, ← ihSiblings]
    by_cases h : members ++ nested.entries = []
    · -- nothing is left below the type either
      have hnested : nested.prune = none := prune_eq_none_iff.2 (List.append_eq_nil_iff.1 h).2
      rw [prune_of_eq_nil h, if_neg (by simp [TreeNode.isOccupied, h]), hnested]
      rfl
    · rw [prune_of_ne_nil h, if_pos (by simpa [TreeNode.isOccupied] using h), nodes, entries_prune]

end TypeForest

/-! ## Namespaces -/

namespace NamespaceForest

variable {number : ℕ} {decl : Namespace} {types : TypeForest α}
  {children siblings : NamespaceForest α}

/-- A namespace goes if there is no member at or below it. -/
theorem prune_of_eq_nil (h : types.entries ++ children.entries = []) :
    (node number decl types children siblings).prune = siblings.prune := by
  rw [List.append_eq_nil_iff] at h
  rw [prune, if_pos]
  simp [TypeForest.isNone_iff, TypeForest.prune_eq_none_iff, isNone_iff, prune_eq_none_iff, h.1,
    h.2]

theorem prune_of_ne_nil (h : types.entries ++ children.entries ≠ []) :
    (node number decl types children siblings).prune =
      node number decl types.prune children.prune siblings.prune := by
  rw [prune, if_neg]
  intro hnone
  rw [Bool.and_eq_true, TypeForest.isNone_iff, TypeForest.prune_eq_none_iff, isNone_iff,
    prune_eq_none_iff] at hnone
  exact h (List.append_eq_nil_iff.2 hnone)

/-- A pruned forest has nothing left to prune. -/
theorem prune_prune (f : NamespaceForest α) : f.prune.prune = f.prune := by
  induction f with
  | none => rfl
  | node number decl types children siblings ihChildren ihSiblings =>
    by_cases h : types.entries ++ children.entries = []
    · rw [prune_of_eq_nil h, ihSiblings]
    · have hpruned : types.prune.entries ++ children.prune.entries ≠ [] := by
        rwa [TypeForest.entries_prune, entries_prune]
      rw [prune_of_ne_nil h, prune_of_ne_nil hpruned, types.prune_prune, ihChildren, ihSiblings]

/-- All nodes, below the namespaces of a path. -/
def nodes (path : List Namespace) : NamespaceForest α → List (TreeNode α)
  | none => []
  | node number decl types children siblings =>
    ⟨⟨path ++ [decl], []⟩, number, types.entries ++ children.entries⟩ ::
      (types.nodes (path ++ [decl]) [] ++ children.nodes (path ++ [decl]) ++ siblings.nodes path)

/-- The nodes of a pruned forest are the occupied ones. -/
theorem nodes_prune (path : List Namespace) (f : NamespaceForest α) :
    f.prune.nodes path = (f.nodes path).filter (·.isOccupied) := by
  induction f generalizing path with
  | none => rfl
  | node number decl types children siblings ihChildren ihSiblings =>
    rw [nodes, List.filter_cons, List.filter_append, List.filter_append, ← TypeForest.nodes_prune,
      ← ihChildren, ← ihSiblings]
    by_cases h : types.entries ++ children.entries = []
    · obtain ⟨htypes, hchildren⟩ := List.append_eq_nil_iff.1 h
      rw [prune_of_eq_nil h, if_neg (by simp [TreeNode.isOccupied, h]),
        TypeForest.prune_eq_none_iff.2 htypes, prune_eq_none_iff.2 hchildren]
      rfl
    · rw [prune_of_ne_nil h, if_pos (by simpa [TreeNode.isOccupied] using h), nodes,
        TypeForest.entries_prune, entries_prune]

end NamespaceForest

/-! ## Blocks -/

/-- A block for a type or for a namespace that has a member or another such block in it. -/
inductive IsOccupiedBlock (p : TreePrinter α) : Fragment → Prop where
  | type (type : EnclosingType) (members : List (Symbol × α)) (nested : List Fragment)
    (hnested : ∀ b ∈ nested, IsOccupiedBlock p b) (hne : members ≠ [] ∨ nested ≠ []) :
    IsOccupiedBlock p (.braced (p.typeHeader type)
      (Fragment.separated (members.map (fun e => .sequence (p.member e.2)) ++ nested)))
  | namespace (name : String) (content : List Fragment)
    (hcontent : ∀ b ∈ content, IsOccupiedBlock p b) (hne : content ≠ []) :
    IsOccupiedBlock p (.braced (p.namespaceHeader name) (Fragment.separated content))

namespace TreePrinter

theorem typeBlocks_eq_nil_iff (p : TreePrinter α) {f : TypeForest α} :
    p.typeBlocks f = [] ↔ f = .none := by
  cases f <;> simp [typeBlocks]

theorem namespaceBlocks_eq_nil_iff (p : TreePrinter α) (qualifier : String)
    {f : NamespaceForest α} : p.namespaceBlocks qualifier f = [] ↔ f = .none := by
  constructor
  · exact not_imp_not.1 (p.namespaceBlocks_ne_nil qualifier)
  · rintro rfl
    rfl

/-- The blocks of a pruned forest are occupied. -/
theorem isOccupiedBlock_of_mem_typeBlocks (p : TreePrinter α) (f : TypeForest α) :
    ∀ b ∈ p.typeBlocks f.prune, IsOccupiedBlock p b := by
  induction f with
  | none => simp [TypeForest.prune, typeBlocks]
  | node number type members nested siblings ihNested ihSiblings =>
    by_cases h : members ++ nested.entries = []
    · rw [TypeForest.prune_of_eq_nil h]
      exact ihSiblings
    · have hne : members ≠ [] ∨ p.typeBlocks nested.prune ≠ [] := by
        rwa [← not_and_or, typeBlocks_eq_nil_iff, TypeForest.prune_eq_none_iff,
          ← List.append_eq_nil_iff]
      rw [TypeForest.prune_of_ne_nil h, typeBlocks, List.forall_mem_cons]
      exact ⟨.type type members _ ihNested hne, ihSiblings⟩

theorem isOccupiedBlock_of_mem_namespaceBlocks (p : TreePrinter α) (qualifier : String)
    (f : NamespaceForest α) : ∀ b ∈ p.namespaceBlocks qualifier f.prune, IsOccupiedBlock p b := by
  induction f generalizing qualifier with
  | none => simp [NamespaceForest.prune, namespaceBlocks]
  | node number decl types children siblings ihChildren ihSiblings =>
    by_cases h : types.entries ++ children.entries = []
    · rw [NamespaceForest.prune_of_eq_nil h]
      exact ihSiblings qualifier
    · rw [NamespaceForest.prune_of_ne_nil h]
      -- the namespace is merged with its only child, or it has a block of its own
      refine (p.namespaceBlocks_node qualifier number decl types.prune children.prune
        siblings.prune).elim ?_ ?_
      · rintro ⟨-, -, hblocks⟩
        rw [hblocks, List.forall_mem_append]
        exact ⟨ihChildren _, ihSiblings qualifier⟩
      · rintro ⟨-, hblocks⟩
        have hne : p.typeBlocks types.prune ++ p.namespaceBlocks "" children.prune ≠ [] := by
          rwa [ne_eq, List.append_eq_nil_iff, typeBlocks_eq_nil_iff, namespaceBlocks_eq_nil_iff,
            TypeForest.prune_eq_none_iff, NamespaceForest.prune_eq_none_iff,
            ← List.append_eq_nil_iff]
        rw [hblocks, List.forall_mem_cons]
        refine ⟨.namespace _ _ (List.forall_mem_append.2 ⟨?_, ihChildren ""⟩) hne,
          ihSiblings qualifier⟩
        exact p.isOccupiedBlock_of_mem_typeBlocks types

end TreePrinter

/-! ## Trees -/

namespace DeclarationTree

/-- All nodes below the global namespace, those of a node before those of its siblings. -/
def nodes (t : DeclarationTree α) : List (TreeNode α) :=
  t.types.nodes [] [] ++ t.namespaces.nodes []

/-- `t'` is `t` without the nodes that have no member at or below them. -/
structure IsPruningOf (t t' : DeclarationTree α) : Prop where
  /-- The members stay, in the order in which they are printed. -/
  members_eq : t'.members = t.members
  /-- A node stays if there is a member at or below it; those that stay keep their order. -/
  nodes_eq : t'.nodes = t.nodes.filter (·.isOccupied)
  isEmpty_iff : t'.isEmpty = true ↔ t'.memberCount = 0
  /-- Every block that is printed has a member in it. -/
  exists_blocks : ∀ p : TreePrinter α, ∃ blocks, t'.fragments p = Fragment.separated blocks ∧
    ∀ b ∈ blocks, IsOccupiedBlock p b
  /-- There is nothing left to prune. -/
  prune_eq : t'.prune = t'

/-- Pruning takes out exactly the nodes that have no member at or below them. -/
theorem isPruningOf_prune (t : DeclarationTree α) : t.IsPruningOf t.prune where
  members_eq := by rw [members, entries_prune, members]
  nodes_eq := by
    rw [nodes, nodes, List.filter_append, ← TypeForest.nodes_prune, ← NamespaceForest.nodes_prune]
    rfl
  isEmpty_iff := by
    rw [isEmpty_prune_iff, memberCount, members, entries_prune, List.length_map,
      List.length_eq_zero_iff]
  exists_blocks := by
    intro p
    refine ⟨_, rfl, List.forall_mem_append.2 ⟨?_, ?_⟩⟩
    · exact p.isOccupiedBlock_of_mem_typeBlocks t.types
    · exact p.isOccupiedBlock_of_mem_namespaceBlocks "" t.namespaces
  prune_eq := by
    simp only [prune, TypeForest.prune_prune, NamespaceForest.prune_prune]

end DeclarationTree
end NativeBindings
