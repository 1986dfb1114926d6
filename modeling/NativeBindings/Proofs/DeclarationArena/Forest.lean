import NativeBindings.Proofs.DeclarationArena.Pruning

/-!
# Declaration arenas as forests

Every node of an arena that stores a tree is entered into one other node at most, which has a smaller
number, and the types that hold members can be reached from the global namespace. So the walks over
the arena end by themselves, come to no node twice, and see the members that a scan of all types
finds.

## Main definitions

- `DeclarationArena.Reaches` — a node can be reached from the global namespace
- `DeclarationArena.IsForest` — how the nodes of an arena hang together
- `Walk.IsTraversal` — a walk ends and comes to every such node once

## Main statements

- `DeclarationArena.Stores.isForest` — an arena that stores a tree is a forest
- `DeclarationArena.Stores.isTraversed` — its walks are traversals
-/

namespace NativeBindings

variable {α β : Type}

namespace DeclarationArena

/-- The numbers of all child namespaces, as often as they are entered into a namespace. -/
def childEntries (a : DeclarationArena α) : List ℕ :=
  a.namespaces.flatMap fun cell => cell.children.map (·.2)

/-- The numbers of all types, as often as they are entered into a namespace or into another type. -/
def typeEntries (a : DeclarationArena α) : List ℕ :=
  (a.namespaces.flatMap fun cell => cell.types.map (·.2)) ++
    a.types.flatMap fun cell => cell.nested.map (·.2)

/-- A node can be reached from the global namespace. -/
inductive Reaches (a : DeclarationArena α) : ArenaNode → Prop where
  | root : Reaches a (.ofNamespace 0)
  | child {i : ℕ} {cell : NamespaceCell} {entry : Symbol × ℕ} (h : Reaches a (.ofNamespace i))
    (hcell : a.namespaces[i]? = some cell) (hentry : entry ∈ cell.children) :
    Reaches a (.ofNamespace entry.2)
  | type {i : ℕ} {cell : NamespaceCell} {entry : Symbol × ℕ} (h : Reaches a (.ofNamespace i))
    (hcell : a.namespaces[i]? = some cell) (hentry : entry ∈ cell.types) :
    Reaches a (.ofType entry.2)
  | nested {i : ℕ} {cell : TypeCell α} {entry : Symbol × ℕ} (h : Reaches a (.ofType i))
    (hcell : a.types[i]? = some cell) (hentry : entry ∈ cell.nested) : Reaches a (.ofType entry.2)

/-- The nodes of an arena form a forest, with all members below the global namespace. -/
structure IsForest (a : DeclarationArena α) : Prop where
  /-- The global namespace is nobody's child. -/
  zero_notMem : 0 ∉ a.childEntries
  /-- A namespace is entered once at most. -/
  nodup_childEntries : a.childEntries.Nodup
  /-- A child namespace stands in the table, behind the namespace that it is a child of. -/
  lt_child : ∀ (i : ℕ) (cell : NamespaceCell), a.namespaces[i]? = some cell →
    ∀ entry ∈ cell.children, i < entry.2 ∧ entry.2 < a.namespaces.length
  /-- A type is entered once at most, into a namespace or into another type. -/
  nodup_typeEntries : a.typeEntries.Nodup
  /-- A type of a namespace stands in the table. -/
  type_lt : ∀ cell ∈ a.namespaces, ∀ entry ∈ cell.types, entry.2 < a.types.length
  /-- A nested type stands in the table, behind the type that it is nested in. -/
  lt_nested : ∀ (i : ℕ) (cell : TypeCell α), a.types[i]? = some cell →
    ∀ entry ∈ cell.nested, i < entry.2 ∧ entry.2 < a.types.length
  /-- A type that holds a member can be reached. -/
  reaches_of_members : ∀ (i : ℕ) (cell : TypeCell α), a.types[i]? = some cell →
    cell.members ≠ [] → a.Reaches (.ofType i)

end DeclarationArena

/-- The walk ends by itself, with the same result to every depth from the size of the arena on, and
comes to every node that can be reached from the global namespace once. -/
def Walk.IsTraversal (walk : ℕ → Walk α β) (a : DeclarationArena α) : Prop :=
  ∃ result w, (∀ depth, a.size ≤ depth → (walk depth).run ⟨a, []⟩ = some (result, w)) ∧
    w.visited.Nodup ∧ ∀ node, node ∈ w.visited ↔ a.Reaches node

/-! ## Nodes of a tree -/

theorem NamespaceForest.visits_perm (f : NamespaceForest α) :
    f.visits.Perm (f.numbers.map .ofNamespace ++ f.typeNumbers.map .ofType) := by
  induction f with
  | none => exact .nil
  | node number decl types children siblings ihChildren ihSiblings =>
    rw [List.perm_iff_count] at ihChildren ihSiblings ⊢
    intro x
    simp only [visits, TypeForest.visits, numbers, typeNumbers, List.map_cons, List.map_append,
      List.count_cons, List.count_append, List.cons_append, ihChildren, ihSiblings]
    omega

namespace DeclarationTree

variable {t : DeclarationTree α}

/-- The nodes of a tree are its namespaces and its types. -/
theorem visits_perm (t : DeclarationTree α) :
    t.visits.Perm (t.namespaceNumbers.map .ofNamespace ++ t.typeNumbers.map .ofType) := by
  have hnamespaces := t.namespaces.visits_perm
  rw [List.perm_iff_count] at hnamespaces ⊢
  intro x
  simp only [visits, TypeForest.visits, namespaceNumbers, typeNumbers, List.map_cons,
    List.map_append, List.count_cons, List.count_append, List.cons_append, hnamespaces]
  omega

theorem mem_visits_ofNamespace {i : ℕ} : .ofNamespace i ∈ t.visits ↔ i ∈ t.namespaceNumbers := by
  rw [t.visits_perm.mem_iff]
  simp

theorem mem_visits_ofType {i : ℕ} : .ofType i ∈ t.visits ↔ i ∈ t.typeNumbers := by
  rw [t.visits_perm.mem_iff]
  simp

theorem IsNumbered.nodup_visits (ht : t.IsNumbered) : t.visits.Nodup := by
  rw [t.visits_perm.nodup_iff, List.nodup_append']
  refine ⟨ht.namespaces_nodup.map fun _ _ e => ArenaNode.ofNamespace.inj e,
    ht.types_nodup.map fun _ _ e => ArenaNode.ofType.inj e, fun x hx hx' => ?_⟩
  obtain ⟨i, -, rfl⟩ := List.mem_map.1 hx
  obtain ⟨j, -, hj⟩ := List.mem_map.1 hx'
  cases hj

end DeclarationTree

/-! ## Arenas that store a tree -/

namespace DeclarationArena.Stores

variable {a : DeclarationArena α} {t : DeclarationTree α} {i : ℕ}

theorem mem_namespaceCells (h : a.Stores t) {cell : NamespaceCell}
    (hcell : a.namespaces[i]? = some cell) (hne : cell.isEmpty ≠ true) :
    (i, cell) ∈ t.namespaceCells :=
  (h.namespaces.mem_or_isBlank hcell).resolve_right hne

theorem mem_typeCells (h : a.Stores t) {cell : TypeCell α} (hcell : a.types[i]? = some cell)
    (hne : cell.isEmpty ≠ true) : (i, cell) ∈ t.typeCells :=
  (h.types.mem_or_isBlank hcell).resolve_right hne

theorem mem_namespaceCells_of_child (h : a.Stores t) {cell : NamespaceCell} {entry : Symbol × ℕ}
    (hcell : a.namespaces[i]? = some cell) (hentry : entry ∈ cell.children) :
    (i, cell) ∈ t.namespaceCells := by
  refine h.mem_namespaceCells hcell fun hblank => ?_
  rw [NamespaceCell.isEmpty, Bool.and_eq_true, List.isEmpty_iff] at hblank
  exact List.not_mem_nil (hblank.1 ▸ hentry)

theorem mem_namespaceCells_of_type (h : a.Stores t) {cell : NamespaceCell} {entry : Symbol × ℕ}
    (hcell : a.namespaces[i]? = some cell) (hentry : entry ∈ cell.types) :
    (i, cell) ∈ t.namespaceCells := by
  refine h.mem_namespaceCells hcell fun hblank => ?_
  rw [NamespaceCell.isEmpty, Bool.and_eq_true, List.isEmpty_iff, List.isEmpty_iff] at hblank
  exact List.not_mem_nil (hblank.2 ▸ hentry)

theorem mem_typeCells_of_nested (h : a.Stores t) {cell : TypeCell α} {entry : Symbol × ℕ}
    (hcell : a.types[i]? = some cell) (hentry : entry ∈ cell.nested) : (i, cell) ∈ t.typeCells := by
  refine h.mem_typeCells hcell fun hblank => ?_
  rw [TypeCell.isEmpty, Bool.and_eq_true, List.isEmpty_iff] at hblank
  exact List.not_mem_nil (hblank.1 ▸ hentry)

/-- The namespaces that are entered into others are those of the tree but the global one. -/
theorem childEntries_perm (h : a.Stores t) (ht : t.IsNumbered) :
    a.childEntries.Perm t.namespaces.numbers := by
  refine (h.namespaces.flatMap_perm ?_ _ fun cell hblank => ?_).trans t.numbers_perm.symm
  · rw [t.map_fst_namespaceCells]
    exact ht.namespaces_nodup
  · rw [NamespaceCell.isEmpty, Bool.and_eq_true, List.isEmpty_iff] at hblank
    rw [hblank.1, List.map_nil]

/-- The types that are entered into namespaces or other types are those of the tree. -/
theorem typeEntries_perm (h : a.Stores t) (ht : t.IsNumbered) :
    a.typeEntries.Perm t.typeNumbers := by
  refine List.Perm.trans (.append ?_ ?_) t.typeNumbers_perm.symm
  · refine h.namespaces.flatMap_perm ?_ _ fun cell hblank => ?_
    · rw [t.map_fst_namespaceCells]
      exact ht.namespaces_nodup
    · rw [NamespaceCell.isEmpty, Bool.and_eq_true, List.isEmpty_iff, List.isEmpty_iff] at hblank
      rw [hblank.2, List.map_nil]
  · refine h.types.flatMap_perm ?_ _ fun cell hblank => ?_
    · rw [t.map_fst_typeCells]
      exact ht.types_nodup
    · rw [TypeCell.isEmpty, Bool.and_eq_true, List.isEmpty_iff] at hblank
      rw [hblank.1, List.map_nil]

/-- A namespace of the tree can be reached: it is the global one, or entered into one with a smaller
number. -/
theorem reaches_ofNamespace (h : a.Stores t) (ht : t.IsNumbered) (hi : i ∈ t.namespaceNumbers) :
    a.Reaches (.ofNamespace i) := by
  induction i using Nat.strongRecOn with
  | ind i ih =>
    rcases List.mem_cons.1 hi with rfl | hi
    · exact .root
    · obtain ⟨x, hx, hin⟩ := List.mem_flatMap.1 (t.numbers_perm.mem_iff.1 hi)
      obtain ⟨entry, hentry, rfl⟩ := List.mem_map.1 hin
      have hparent : x.1 ∈ t.namespaceNumbers :=
        t.map_fst_namespaceCells ▸ List.mem_map_of_mem hx
      exact .child (ih x.1 (ht.lt.1 x hx entry hentry) hparent) (h.namespaces.getElem?_eq x hx) hentry

/-- A type of the tree can be reached: it is entered into a namespace, or into a type with a smaller
number. -/
theorem reaches_ofType (h : a.Stores t) (ht : t.IsNumbered) (hi : i ∈ t.typeNumbers) :
    a.Reaches (.ofType i) := by
  induction i using Nat.strongRecOn with
  | ind i ih =>
    rcases List.mem_append.1 (t.typeNumbers_perm.mem_iff.1 hi) with hi | hi
    · obtain ⟨x, hx, hin⟩ := List.mem_flatMap.1 hi
      obtain ⟨entry, hentry, rfl⟩ := List.mem_map.1 hin
      have hparent : x.1 ∈ t.namespaceNumbers :=
        t.map_fst_namespaceCells ▸ List.mem_map_of_mem hx
      exact .type (h.reaches_ofNamespace ht hparent) (h.namespaces.getElem?_eq x hx) hentry
    · obtain ⟨x, hx, hin⟩ := List.mem_flatMap.1 hi
      obtain ⟨entry, hentry, rfl⟩ := List.mem_map.1 hin
      have hparent : x.1 ∈ t.typeNumbers := t.map_fst_typeCells ▸ List.mem_map_of_mem hx
      exact .nested (ih x.1 (ht.lt.2 x hx entry hentry) hparent) (h.types.getElem?_eq x hx) hentry

/-- The nodes that can be reached are those of the tree. -/
theorem reaches_iff (h : a.Stores t) (ht : t.IsNumbered) {node : ArenaNode} :
    a.Reaches node ↔ node ∈ t.visits := by
  constructor
  · intro hreaches
    cases hreaches with
    | root => exact List.mem_cons_self
    | child _ hcell hentry =>
      refine DeclarationTree.mem_visits_ofNamespace.2 (List.mem_cons_of_mem 0 ?_)
      exact t.numbers_perm.mem_iff.2 (List.mem_flatMap.2
        ⟨_, h.mem_namespaceCells_of_child hcell hentry, List.mem_map_of_mem hentry⟩)
    | type _ hcell hentry =>
      refine DeclarationTree.mem_visits_ofType.2 (t.typeNumbers_perm.mem_iff.2 ?_)
      exact List.mem_append_left _ (List.mem_flatMap.2
        ⟨_, h.mem_namespaceCells_of_type hcell hentry, List.mem_map_of_mem hentry⟩)
    | nested _ hcell hentry =>
      refine DeclarationTree.mem_visits_ofType.2 (t.typeNumbers_perm.mem_iff.2 ?_)
      exact List.mem_append_right _ (List.mem_flatMap.2
        ⟨_, h.mem_typeCells_of_nested hcell hentry, List.mem_map_of_mem hentry⟩)
  · intro hnode
    cases node with
    | ofNamespace i => exact h.reaches_ofNamespace ht (DeclarationTree.mem_visits_ofNamespace.1 hnode)
    | ofType i => exact h.reaches_ofType ht (DeclarationTree.mem_visits_ofType.1 hnode)

theorem isForest (h : a.Stores t) (ht : t.IsNumbered) : a.IsForest where
  zero_notMem := by
    rw [(h.childEntries_perm ht).mem_iff]
    exact (List.nodup_cons.1 ht.namespaces_nodup).1
  nodup_childEntries :=
    (h.childEntries_perm ht).nodup_iff.2 (List.nodup_cons.1 ht.namespaces_nodup).2
  lt_child := by
    intro i cell hcell entry hentry
    have hmem := h.mem_namespaceCells_of_child hcell hentry
    have hchild : entry.2 ∈ t.namespaces.numbers := t.numbers_perm.mem_iff.2
      (List.mem_flatMap.2 ⟨_, hmem, List.mem_map_of_mem hentry⟩)
    refine ⟨ht.lt.1 _ hmem entry hentry, ?_⟩
    rw [h.length_namespaces]
    exact ht.namespaces_lt _ (List.mem_cons_of_mem 0 hchild)
  nodup_typeEntries := (h.typeEntries_perm ht).nodup_iff.2 ht.types_nodup
  type_lt := by
    intro cell hcell entry hentry
    have hmem : entry.2 ∈ a.typeEntries :=
      List.mem_append_left _ (List.mem_flatMap.2 ⟨cell, hcell, List.mem_map_of_mem hentry⟩)
    rw [h.length_types]
    exact ht.types_lt _ ((h.typeEntries_perm ht).mem_iff.1 hmem)
  lt_nested := by
    intro i cell hcell entry hentry
    have hmem : entry.2 ∈ a.typeEntries := List.mem_append_right _ (List.mem_flatMap.2
      ⟨cell, List.mem_of_getElem? hcell, List.mem_map_of_mem hentry⟩)
    refine ⟨ht.lt.2 _ (h.mem_typeCells_of_nested hcell hentry) entry hentry, ?_⟩
    rw [h.length_types]
    exact ht.types_lt _ ((h.typeEntries_perm ht).mem_iff.1 hmem)
  reaches_of_members := by
    intro i cell hcell hmembers
    have hmem : (i, cell) ∈ t.typeCells := by
      refine h.mem_typeCells hcell fun hblank => hmembers ?_
      rw [TypeCell.isEmpty, Bool.and_eq_true, List.isEmpty_iff, List.isEmpty_iff] at hblank
      exact hblank.2
    exact h.reaches_ofType ht (t.map_fst_typeCells ▸ List.mem_map_of_mem hmem)

/-! ## Walks over a stored tree -/

theorem isTraversal_of_perm (h : a.Stores t) (ht : t.IsNumbered) {walk : ℕ → Walk α β} {result : β}
    {w : ArenaWalk α}
    (hrun : ∀ depth, t.height ≤ depth → (walk depth).run ⟨a, []⟩ = some (result, w))
    (hvisited : w.visited.Perm t.visits) : Walk.IsTraversal walk a := by
  refine ⟨result, w, fun depth hdepth => hrun depth (Nat.le_trans (h.height_le_size ht) hdepth),
    hvisited.nodup_iff.2 ht.nodup_visits, fun node => ?_⟩
  rw [hvisited.mem_iff, h.reaches_iff ht]

theorem isTraversal_foldNamespace {γ : Type} (h : a.Stores t) (ht : t.IsNumbered)
    (onType : TypeCell α → List β → β) (onNamespace : NamespaceCell → List β → List γ → γ) :
    Walk.IsTraversal (Walk.foldNamespace onType onNamespace · 0) a :=
  h.isTraversal_of_perm ht (fun _ => h.run_foldNamespace onType onNamespace) (.refl _)

theorem isTraversal_prune (h : a.Stores t) (ht : t.IsNumbered) : Walk.IsTraversal Walk.prune a := by
  obtain ⟨w, hrun, hvisited, -⟩ := h.exists_prune ht
  exact h.isTraversal_of_perm ht hrun hvisited

/-- A scan of all types finds the members in the types that can be reached. -/
theorem isKnown_iff_reaches (h : a.Stores t) (ht : t.IsNumbered) (member : Symbol) :
    a.isKnown member = true ↔ member ∈ a.refused ∨ ∃ i cell, a.Reaches (.ofType i) ∧
      a.types[i]? = some cell ∧ member ∈ cell.members.map (·.1) := by
  rw [h.isKnown_eq ht, DeclarationTree.isKnown_iff, h.refused_eq]
  refine or_congr_right ⟨fun hmem => ?_, ?_⟩
  · rw [t.entries_eq_flatMap, List.map_flatMap] at hmem
    obtain ⟨x, hx, hmem⟩ := List.mem_flatMap.1 hmem
    exact ⟨x.1, x.2, h.reaches_ofType ht (t.map_fst_typeCells ▸ List.mem_map_of_mem hx),
      h.types.getElem?_eq x hx, hmem⟩
  · rintro ⟨i, cell, -, hcell, hmem⟩
    obtain ⟨entry, hentry, rfl⟩ := List.mem_map.1 hmem
    refine List.mem_map_of_mem ((h.members_perm ht).mem_iff.1 ?_)
    exact List.mem_flatMap.2 ⟨cell, List.mem_of_getElem? hcell, hentry⟩

end DeclarationArena.Stores
end NativeBindings
