import NativeBindings.Proofs.DeclarationArena.Tables

/-!
# Walks that compute from a declaration arena

A walk that computes something from all nodes of an arena has a result if the arena stores a tree and
the walk may go down as far as the tree does. It comes to every node of the tree once, and its result
is what the nodes of the tree give. No tree is higher than the number of the nodes in the tables. So
an arena has the members and the text of its tree.

## Main definitions

- `DeclarationTree.height` — how far a tree goes down
- `DeclarationTree.visits` — the nodes of a tree, in the order in which they are printed

## Main statements

- `DeclarationArena.Stores.height_le_size` — a walk to the depth of the size goes down far enough
- `DeclarationArena.Stores.run_foldNamespace` — every walk of this kind has a result
- `DeclarationArena.Stores.members?_eq`, `DeclarationArena.Stores.fragments?_eq` — an arena has the
  members and the text of its tree
-/

namespace NativeBindings

variable {α β γ : Type}

/-- The walk after it has come to more nodes. -/
def ArenaWalk.visit (w : ArenaWalk α) (nodes : List ArenaNode) : ArenaWalk α :=
  { w with visited := w.visited ++ nodes }

@[simp] theorem ArenaWalk.arena_visit (w : ArenaWalk α) (nodes : List ArenaNode) :
    (w.visit nodes).arena = w.arena :=
  rfl

@[simp] theorem ArenaWalk.visit_visit (w : ArenaWalk α) (first then' : List ArenaNode) :
    (w.visit first).visit then' = w.visit (first ++ then') := by
  simp [visit, List.append_assoc]

/-- The number of types on the longest way down. -/
def TypeForest.height : TypeForest α → ℕ
  | none => 0
  | node _ _ _ nested siblings => max (nested.height + 1) siblings.height

theorem TypeForest.height_le_length (f : TypeForest α) : f.height ≤ f.numbers.length := by
  induction f with
  | none => exact Nat.le_refl 0
  | node number type members nested siblings ihNested ihSiblings =>
    simp only [height, numbers, List.length_cons, List.length_append]
    omega

/-- What is computed from the outermost types and all types nested in them. -/
def TypeForest.fold (onType : TypeCell α → List β → β) : TypeForest α → List β
  | none => []
  | node _ type members nested siblings =>
    onType ⟨type, nested.childMap, members⟩ (nested.fold onType) :: siblings.fold onType

/-- The types of a forest as nodes. -/
def TypeForest.visits (f : TypeForest α) : List ArenaNode := f.numbers.map .ofType

namespace Walk

/-- A walk over several numbers goes over the first one, and then over the others. -/
theorem run_mapM_cons {visit : ℕ → Walk α β} {w w' w'' : ArenaWalk α} {number : ℕ}
    {numbers : List ℕ} {result : β} {results : List β} (hfirst : (visit number).run w = some (result, w'))
    (hothers : (numbers.mapM visit).run w' = some (results, w'')) :
    ((number :: numbers).mapM visit).run w = some (result :: results, w'') := by
  rw [List.mapM_cons]
  simp only [StateT.run_bind, hfirst, Option.bind_eq_bind, Option.bind_some, hothers, StateT.run_pure]
  rfl

theorem run_visitType {w : ArenaWalk α} {number : ℕ} {cell : TypeCell α}
    (h : w.arena.types[number]? = some cell) :
    (visitType number).run w = some (cell, w.visit [.ofType number]) := by
  simp [visitType, StateT.run, h, ArenaWalk.visit]

/-- A type is visited with its nested types, and then it is computed. -/
theorem run_foldType_of_mapM (onType : TypeCell α → List β → β) {w : ArenaWalk α}
    {number depth : ℕ} {cell : TypeCell α} {nested : TypeForest α}
    (hcell : w.arena.types[number]? = some cell)
    (hnested : ((cell.nested.map (·.2)).mapM (foldType onType depth)).run (w.visit [.ofType number]) =
      some (nested.fold onType, (w.visit [.ofType number]).visit nested.visits)) :
    (foldType onType (depth + 1) number).run w =
      some (onType cell (nested.fold onType), w.visit (.ofType number :: nested.visits)) := by
  rw [foldType]
  simp only [StateT.run_bind, run_visitType hcell, Option.bind_eq_bind, Option.bind_some, hnested,
    StateT.run_pure, ArenaWalk.visit_visit, List.singleton_append]
  rfl

theorem run_mapM_foldType (onType : TypeCell α → List β → β) (f : TypeForest α) {w : ArenaWalk α}
    {depth : ℕ} (h : ∀ x ∈ f.cells, w.arena.types[x.1]? = some x.2) (hdepth : f.height ≤ depth) :
    ((f.childMap.map (·.2)).mapM (foldType onType depth)).run w =
      some (f.fold onType, w.visit f.visits) := by
  induction f generalizing w depth with
  | none =>
    simp [TypeForest.childMap, TypeForest.fold, TypeForest.visits, TypeForest.numbers,
      ArenaWalk.visit]
  | node number type members nested siblings ihNested ihSiblings =>
    simp only [TypeForest.cells, List.forall_mem_cons, List.forall_mem_append] at h
    obtain ⟨hcell, hnested, hsiblings⟩ := h
    rw [TypeForest.height, Nat.max_le] at hdepth
    obtain ⟨depth, rfl⟩ := Nat.exists_eq_add_of_le' (Nat.le_trans (Nat.le_add_left 1 _) hdepth.1)
    have hfirst := run_foldType_of_mapM onType hcell
      (ihNested (w := w.visit [.ofType number]) hnested (Nat.le_of_succ_le_succ hdepth.1))
    have hothers := ihSiblings (w := w.visit (.ofType number :: nested.visits)) hsiblings hdepth.2
    rw [TypeForest.childMap, List.map_cons, run_mapM_cons hfirst hothers, TypeForest.fold,
      ArenaWalk.visit_visit]
    simp only [TypeForest.visits, TypeForest.numbers, List.map_cons, List.map_append,
      List.cons_append]

end Walk

/-! ## Namespaces -/

namespace NamespaceForest

/-- The number of namespaces and types on the longest way down. -/
def height : NamespaceForest α → ℕ
  | none => 0
  | node _ _ types children siblings =>
    max (max types.height children.height + 1) siblings.height

theorem height_le_length (f : NamespaceForest α) :
    f.height ≤ f.numbers.length + f.typeNumbers.length := by
  induction f with
  | none => exact Nat.le_refl 0
  | node number decl types children siblings ihChildren ihSiblings =>
    have htypes := types.height_le_length
    simp only [height, numbers, typeNumbers, List.length_cons, List.length_append]
    omega

/-- What is computed from the outermost namespaces, their types and all namespaces below them. -/
def fold (onType : TypeCell α → List β → β) (onNamespace : NamespaceCell → List β → List γ → γ) :
    NamespaceForest α → List γ
  | none => []
  | node _ decl types children siblings =>
    onNamespace ⟨decl.name, children.childMap, types.childMap⟩ (types.fold onType)
        (children.fold onType onNamespace) ::
      siblings.fold onType onNamespace

/-- The nodes of a forest, a namespace before its types and these before its child namespaces. -/
def visits : NamespaceForest α → List ArenaNode
  | none => []
  | node number _ types children siblings =>
    .ofNamespace number :: (types.visits ++ children.visits ++ siblings.visits)

end NamespaceForest

/-- The number of nodes on the longest way down from the global namespace. -/
def DeclarationTree.height (t : DeclarationTree α) : ℕ :=
  max t.types.height t.namespaces.height + 1

/-- The nodes of a tree, in the order in which they are printed. -/
def DeclarationTree.visits (t : DeclarationTree α) : List ArenaNode :=
  .ofNamespace 0 :: (t.types.visits ++ t.namespaces.visits)

namespace Walk

theorem run_visitNamespace {w : ArenaWalk α} {number : ℕ} {cell : NamespaceCell}
    (h : w.arena.namespaces[number]? = some cell) :
    (visitNamespace number).run w = some (cell, w.visit [.ofNamespace number]) := by
  simp [visitNamespace, StateT.run, h, ArenaWalk.visit]

variable (onType : TypeCell α → List β → β) (onNamespace : NamespaceCell → List β → List γ → γ)

/-- The nodes of a namespace are visited, and then the namespace is computed. -/
theorem run_foldNamespace_of_mapM {w : ArenaWalk α} {number depth : ℕ} {name : String}
    {types : TypeForest α} {children : NamespaceForest α}
    (hcell : w.arena.namespaces[number]? = some ⟨name, children.childMap, types.childMap⟩)
    (htypes : ∀ x ∈ types.cells, w.arena.types[x.1]? = some x.2) (hdepth : types.height ≤ depth)
    (hchildren : ∀ w' : ArenaWalk α, w'.arena = w.arena →
      ((children.childMap.map (·.2)).mapM (foldNamespace onType onNamespace depth)).run w' =
        some (children.fold onType onNamespace, w'.visit children.visits)) :
    (foldNamespace onType onNamespace (depth + 1) number).run w =
      some (onNamespace ⟨name, children.childMap, types.childMap⟩ (types.fold onType)
          (children.fold onType onNamespace),
        w.visit (.ofNamespace number :: (types.visits ++ children.visits))) := by
  rw [foldNamespace]
  simp only [StateT.run_bind, run_visitNamespace hcell, Option.bind_eq_bind, Option.bind_some,
    StateT.run_pure]
  have hfirst := run_mapM_foldType onType types (w := w.visit [.ofNamespace number]) htypes hdepth
  have hthen := hchildren ((w.visit [.ofNamespace number]).visit types.visits) rfl
  rw [hfirst, Option.bind_some, hthen, Option.bind_some]
  simp only [ArenaWalk.visit_visit, List.cons_append]
  rfl

theorem run_mapM_foldNamespace (f : NamespaceForest α) {w : ArenaWalk α} {depth : ℕ}
    (hnamespaces : ∀ x ∈ f.cells, w.arena.namespaces[x.1]? = some x.2)
    (htypes : ∀ x ∈ f.typeCells, w.arena.types[x.1]? = some x.2) (hdepth : f.height ≤ depth) :
    ((f.childMap.map (·.2)).mapM (foldNamespace onType onNamespace depth)).run w =
      some (f.fold onType onNamespace, w.visit f.visits) := by
  induction f generalizing w depth with
  | none =>
    simp [NamespaceForest.childMap, NamespaceForest.fold, NamespaceForest.visits, ArenaWalk.visit]
  | node number decl types children siblings ihChildren ihSiblings =>
    simp only [NamespaceForest.cells, NamespaceForest.typeCells, List.forall_mem_cons,
      List.forall_mem_append] at hnamespaces htypes
    obtain ⟨hcell, hchildren, hsiblings⟩ := hnamespaces
    obtain ⟨⟨htypes, hchildTypes⟩, hsiblingTypes⟩ := htypes
    rw [NamespaceForest.height, Nat.max_le] at hdepth
    obtain ⟨hfirst, hbeside⟩ := hdepth
    obtain ⟨depth, rfl⟩ := Nat.exists_eq_add_of_le' (Nat.le_trans (Nat.le_add_left 1 _) hfirst)
    obtain ⟨htypesDepth, hchildrenDepth⟩ := Nat.max_le.1 (Nat.le_of_succ_le_succ hfirst)
    have hbelow : ∀ w' : ArenaWalk α, w'.arena = w.arena →
        ((children.childMap.map (·.2)).mapM (foldNamespace onType onNamespace depth)).run w' =
          some (children.fold onType onNamespace, w'.visit children.visits) := by
      intro w' hw'
      exact ihChildren (hw' ▸ hchildren) (hw' ▸ hchildTypes) hchildrenDepth
    have hfirst := run_foldNamespace_of_mapM onType onNamespace hcell htypes htypesDepth hbelow
    have hothers := ihSiblings
      (w := w.visit (.ofNamespace number :: (types.visits ++ children.visits))) hsiblings
      hsiblingTypes hbeside
    rw [NamespaceForest.childMap, List.map_cons, run_mapM_cons hfirst hothers, NamespaceForest.fold,
      NamespaceForest.visits, ArenaWalk.visit_visit, List.cons_append]

end Walk

/-! ## Members and text -/

theorem TypeForest.flatten_fold_members (f : TypeForest α) :
    (f.fold fun cell nested => cell.members ++ nested.flatten).flatten = f.entries := by
  induction f with
  | none => rfl
  | node number type members nested siblings ihNested ihSiblings =>
    rw [fold, List.flatten_cons, ihNested, ihSiblings, entries]

theorem NamespaceForest.flatten_fold_members (f : NamespaceForest α) :
    (f.fold (fun cell nested => cell.members ++ nested.flatten)
      fun _ types children => types.flatten ++ children.flatten).flatten = f.entries := by
  induction f with
  | none => rfl
  | node number decl types children siblings ihChildren ihSiblings =>
    rw [fold, List.flatten_cons, TypeForest.flatten_fold_members, ihChildren, ihSiblings, entries]

theorem TypeForest.fold_typeBlock (p : TreePrinter α) (f : TypeForest α) :
    f.fold (Walk.typeBlock p) = p.typeBlocks f := by
  induction f with
  | none => rfl
  | node number type members nested siblings ihNested ihSiblings =>
    rw [fold, ihNested, ihSiblings, TreePrinter.typeBlocks, Walk.typeBlock]

/-- A namespace behind a qualifier is printed as in its tree. -/
theorem NamespaceForest.map_block_fold (p : TreePrinter α) (qualifier : String)
    (f : NamespaceForest α) :
    (f.fold (Walk.typeBlock p) (Walk.namespaceText p)).map (·.block qualifier) =
      p.namespaceBlocks qualifier f := by
  induction f generalizing qualifier with
  | none => rfl
  | node number decl types children siblings ihChildren ihSiblings =>
    have hitems := congrArg₂ (fun ts cs => Fragment.separated (ts ++ cs)) (types.fold_typeBlock p)
      (ihChildren "")
    rw [fold, List.map_cons, ihSiblings]
    have hbraced := congrArg (fun items =>
      Fragment.braced (p.namespaceHeader (qualifier ++ decl.name)) items ::
        p.namespaceBlocks qualifier siblings) hitems
    -- the namespace has a block of its own unless it holds nothing but one child
    cases types with
    | node n type members nested others =>
      rw [TreePrinter.namespaceBlocks]
      · exact hbraced
      · exact nofun
    | none =>
      cases children with
      | none => rfl
      | node n d ts cs others =>
        cases others with
        | none =>
          rw [TreePrinter.namespaceBlocks, ← ihChildren]
          rfl
        | node => exact hbraced

namespace DeclarationArena.Stores

variable {a : DeclarationArena α} {t : DeclarationTree α}

/-- No way down is longer than there are nodes in the tables. -/
theorem height_le_size (h : a.Stores t) (ht : t.IsNumbered) : t.height ≤ a.size := by
  have hnamespaces : t.namespaceNumbers.length ≤ a.namespaces.length := by
    rw [h.length_namespaces, ← List.length_range (n := t.nextNamespace)]
    exact (List.subperm_of_subset ht.namespaces_nodup fun i hi =>
      List.mem_range.2 (ht.namespaces_lt i hi)).length_le
  have htypes : t.typeNumbers.length ≤ a.types.length := by
    rw [h.length_types, ← List.length_range (n := t.nextType)]
    exact (List.subperm_of_subset ht.types_nodup fun i hi => List.mem_range.2 (ht.types_lt i hi)).length_le
  have hheight := t.namespaces.height_le_length
  have hheight' := t.types.height_le_length
  simp only [DeclarationTree.namespaceNumbers, DeclarationTree.typeNumbers, List.length_cons,
    List.length_append] at hnamespaces htypes
  simp only [DeclarationTree.height, size]
  omega

/-- A walk over all nodes of a stored tree has a result, and visits them in the order in which they
are printed. -/
theorem run_foldNamespace (h : a.Stores t) (onType : TypeCell α → List β → β)
    (onNamespace : NamespaceCell → List β → List γ → γ) {depth : ℕ} (hdepth : t.height ≤ depth) :
    (Walk.foldNamespace onType onNamespace depth 0).run ⟨a, []⟩ =
      some (onNamespace ⟨"", t.namespaces.childMap, t.types.childMap⟩ (t.types.fold onType)
          (t.namespaces.fold onType onNamespace), ⟨a, t.visits⟩) := by
  obtain ⟨depth, rfl⟩ := Nat.exists_eq_add_of_le' (Nat.le_trans (Nat.le_add_left 1 _) hdepth)
  obtain ⟨htypesDepth, hnamespacesDepth⟩ := Nat.max_le.1 (Nat.le_of_succ_le_succ hdepth)
  have htypes := h.types.getElem?_eq
  rw [DeclarationTree.typeCells, List.forall_mem_append] at htypes
  refine Walk.run_foldNamespace_of_mapM onType onNamespace h.getElem?_zero htypes.1 htypesDepth
    fun w hw => ?_
  refine Walk.run_mapM_foldNamespace onType onNamespace t.namespaces (fun x hx => ?_) ?_
    hnamespacesDepth
  · rw [hw]
    exact h.namespaces.getElem?_eq x (List.mem_cons_of_mem _ hx)
  · rw [hw]
    exact htypes.2

theorem run_entries (h : a.Stores t) {depth : ℕ} (hdepth : t.height ≤ depth) :
    (Walk.entries depth).run ⟨a, []⟩ = some (t.entries, ⟨a, t.visits⟩) := by
  rw [Walk.entries, h.run_foldNamespace _ _ hdepth, TypeForest.flatten_fold_members,
    NamespaceForest.flatten_fold_members, DeclarationTree.entries]

theorem members?_eq (h : a.Stores t) (ht : t.IsNumbered) : a.members? = some t.members := by
  rw [members?, h.run_entries (h.height_le_size ht), Option.map_some, DeclarationTree.members]

theorem fragments?_eq (h : a.Stores t) (ht : t.IsNumbered) (p : TreePrinter α) :
    a.fragments? p = some (t.fragments p) := by
  rw [fragments?, Walk.text, h.run_foldNamespace _ _ (h.height_le_size ht), Option.map_some,
    Walk.namespaceText, TypeForest.fold_typeBlock, NamespaceForest.map_block_fold,
    DeclarationTree.fragments]

end DeclarationArena.Stores
end NativeBindings
