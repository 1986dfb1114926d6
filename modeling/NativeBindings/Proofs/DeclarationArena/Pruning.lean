import NativeBindings.Proofs.DeclarationArena.Folds
import NativeBindings.Proofs.DeclarationTree.Pruning

/-!
# Pruning of a declaration arena

Pruning a stored tree comes to every node once, from the inside out, and leaves an arena that stores
the pruned tree. How far the walk may go down makes no difference from the height of the tree on. The cells of nodes that are cut off stay in the tables, with nothing in them.

## Main definitions

- `TypeForest.settledCells`, `NamespaceForest.settledCells` — what pruning leaves in the cells
- `ArenaWalk.Settles` — a walk comes to some nodes and leaves some cells

## Main statements

- `DeclarationArena.Stores.exists_prune` — what a pruning of the arena does
-/

namespace NativeBindings

variable {α β : Type}

/-! ## Filters -/

theorem filterAuxM_eq {m : Type → Type} [Monad m] [LawfulMonad m] (p : β → m Bool) (as acc : List β) :
    List.filterAuxM p as acc = (do
      let kept ← List.filterAuxM p as []
      pure (kept ++ acc)) := by
  induction as generalizing acc with
  | nil => simp [List.filterAuxM]
  | cons a as ih =>
    simp only [List.filterAuxM, bind_assoc]
    refine bind_congr fun b => ?_
    rw [ih, ih (bif b then [a] else [])]
    cases b <;> simp

/-- A filter asks about the first element, and then about the others. -/
theorem filterM_cons {m : Type → Type} [Monad m] [LawfulMonad m] (p : β → m Bool) (a : β)
    (as : List β) :
    (a :: as).filterM p = (do
      let b ← p a
      let kept ← as.filterM p
      pure (if b then a :: kept else kept)) := by
  simp only [List.filterM, List.filterAuxM, bind_assoc, pure_bind]
  refine bind_congr fun b => ?_
  rw [filterAuxM_eq]
  cases b <;> simp

/-! ## Settled cells -/

namespace TypeForest

/-- The cells of all types after pruning, also of those that are cut off. -/
def settledCells : TypeForest α → List (ℕ × TypeCell α)
  | none => []
  | node number type members nested siblings =>
    (number, ⟨type, nested.prune.childMap, members⟩) :: (nested.settledCells ++ siblings.settledCells)

/-- The numbers of the outermost types that are cut off. -/
def goneNumbers : TypeForest α → List ℕ
  | none => []
  | node number _ members nested siblings =>
    if members.isEmpty && nested.prune.isNone then number :: siblings.goneNumbers
    else siblings.goneNumbers

theorem map_fst_settledCells (f : TypeForest α) : f.settledCells.map (·.1) = f.numbers := by
  induction f with
  | none => rfl
  | node number type members nested siblings ihNested ihSiblings =>
    rw [settledCells, List.map_cons, List.map_append, ihNested, ihSiblings, numbers]

theorem cells_prune_subset (f : TypeForest α) : f.prune.cells ⊆ f.settledCells := by
  induction f with
  | none => exact List.Subset.refl _
  | node number type members nested siblings ihNested ihSiblings =>
    rw [prune, settledCells]
    split
    · exact List.subset_cons_of_subset _ (List.subset_append_of_subset_right _ ihSiblings)
    · exact List.cons_subset_cons _ (List.append_subset.2
        ⟨List.subset_append_of_subset_left _ ihNested,
          List.subset_append_of_subset_right _ ihSiblings⟩)

/-- There is nothing in the cell of a type that is cut off. -/
theorem isEmpty_of_mem_settledCells {f : TypeForest α} {x : ℕ × TypeCell α}
    (h : x ∈ f.settledCells) (hx : x.1 ∉ f.prune.numbers) : x.2.isEmpty = true := by
  induction f with
  | none => cases h
  | node number type members nested siblings ihNested ihSiblings =>
    rw [prune] at hx
    rw [settledCells, List.mem_cons, List.mem_append] at h
    by_cases hgone : (members.isEmpty && nested.prune.isNone) = true
    · rw [if_pos hgone] at hx
      rw [Bool.and_eq_true, isNone_iff] at hgone
      rcases h with rfl | h | h
      · rw [TypeCell.isEmpty, hgone.1, hgone.2]
        rfl
      · exact ihNested h (hgone.2 ▸ List.not_mem_nil)
      · exact ihSiblings h hx
    · rw [if_neg hgone, numbers, List.mem_cons, List.mem_append, not_or, not_or] at hx
      rcases h with rfl | h | h
      · exact absurd rfl hx.1
      · exact ihNested h hx.2.1
      · exact ihSiblings h hx.2.2

theorem goneNumbers_subset (f : TypeForest α) : f.goneNumbers ⊆ f.numbers := by
  induction f with
  | none => exact List.Subset.refl _
  | node number type members nested siblings ihNested ihSiblings =>
    rw [goneNumbers, numbers]
    split
    · exact List.cons_subset_cons _ (List.subset_append_of_subset_right _ ihSiblings)
    · exact List.subset_cons_of_subset _ (List.subset_append_of_subset_right _ ihSiblings)

/-- Without the types that are cut off, the outermost types are those of the pruned forest. -/
theorem without_childMap {f : TypeForest α} (hnodup : f.numbers.Nodup) {gone : List ℕ}
    (h : ∀ i ∈ f.numbers, i ∈ gone ↔ i ∈ f.goneNumbers) :
    Walk.without gone f.childMap = f.prune.childMap := by
  induction f with
  | none => rfl
  | node number type members nested siblings _ ihSiblings =>
    rw [numbers, List.nodup_cons, List.mem_append, not_or] at hnodup
    obtain ⟨hnumber, hnodup⟩ := hnodup
    have hsiblings : Walk.without gone siblings.childMap = siblings.prune.childMap := by
      refine ihSiblings hnodup.of_append_right fun i hi => ?_
      have hne : i ≠ number := fun e => hnumber.2 (e ▸ hi)
      rw [h i (List.mem_cons_of_mem _ (List.mem_append_right _ hi)), goneNumbers]
      split
      · rw [List.mem_cons, or_iff_right hne]
      · exact Iff.rfl
    have hfirst := h number List.mem_cons_self
    rw [goneNumbers] at hfirst
    rw [childMap, Walk.without, List.filter_cons, ← Walk.without, hsiblings, prune]
    by_cases hgone : (members.isEmpty && nested.prune.isNone) = true
    · rw [if_pos hgone] at hfirst
      have hmem : gone.contains number = true := by simpa using hfirst
      rw [if_pos hgone, hmem, Bool.not_true, if_neg Bool.false_ne_true]
    · rw [if_neg hgone] at hfirst
      have hmem : gone.contains number = false := by
        simpa [hfirst] using fun h => hnumber.2 (siblings.goneNumbers_subset h)
      rw [if_neg hgone, hmem, Bool.not_false, if_pos rfl, childMap]

end TypeForest

namespace NamespaceForest

/-- The cells of all namespaces after pruning, also of those that are cut off. -/
def settledCells : NamespaceForest α → List (ℕ × NamespaceCell)
  | none => []
  | node number decl types children siblings =>
    (number, ⟨decl.name, children.prune.childMap, types.prune.childMap⟩) ::
      (children.settledCells ++ siblings.settledCells)

/-- The cells of the types in all namespaces after pruning. -/
def settledTypeCells : NamespaceForest α → List (ℕ × TypeCell α)
  | none => []
  | node _ _ types children siblings =>
    children.settledTypeCells ++ types.settledCells ++ siblings.settledTypeCells

/-- The numbers of the outermost namespaces that are cut off. -/
def goneNumbers : NamespaceForest α → List ℕ
  | none => []
  | node number _ types children siblings =>
    if types.prune.isNone && children.prune.isNone then number :: siblings.goneNumbers
    else siblings.goneNumbers

theorem map_fst_settledCells (f : NamespaceForest α) : f.settledCells.map (·.1) = f.numbers := by
  induction f with
  | none => rfl
  | node number decl types children siblings ihChildren ihSiblings =>
    rw [settledCells, List.map_cons, List.map_append, ihChildren, ihSiblings, numbers]

theorem map_fst_settledTypeCells_perm (f : NamespaceForest α) :
    (f.settledTypeCells.map (·.1)).Perm f.typeNumbers := by
  induction f with
  | none => exact .nil
  | node number decl types children siblings ihChildren ihSiblings =>
    rw [settledTypeCells, List.map_append, List.map_append, TypeForest.map_fst_settledCells,
      typeNumbers]
    exact ((ihChildren.append_right _).trans List.perm_append_comm).append ihSiblings

theorem cells_prune_subset (f : NamespaceForest α) : f.prune.cells ⊆ f.settledCells := by
  induction f with
  | none => exact List.Subset.refl _
  | node number decl types children siblings ihChildren ihSiblings =>
    rw [prune, settledCells]
    split
    · exact List.subset_cons_of_subset _ (List.subset_append_of_subset_right _ ihSiblings)
    · exact List.cons_subset_cons _ (List.append_subset.2
        ⟨List.subset_append_of_subset_left _ ihChildren,
          List.subset_append_of_subset_right _ ihSiblings⟩)

theorem typeCells_prune_subset (f : NamespaceForest α) :
    f.prune.typeCells ⊆ f.settledTypeCells := by
  induction f with
  | none => exact List.Subset.refl _
  | node number decl types children siblings ihChildren ihSiblings =>
    rw [prune, settledTypeCells]
    have hsiblings := List.subset_append_of_subset_right
      (children.settledTypeCells ++ types.settledCells) ihSiblings
    split
    · exact hsiblings
    · refine List.append_subset.2 ⟨List.append_subset.2 ⟨fun x hx => ?_, fun x hx => ?_⟩, hsiblings⟩
      · exact List.mem_append_left _ (List.mem_append_right _ (types.cells_prune_subset hx))
      · exact List.mem_append_left _ (List.mem_append_left _ (ihChildren hx))

/-- There is nothing in the cell of a namespace that is cut off. -/
theorem isEmpty_of_mem_settledCells {f : NamespaceForest α} {x : ℕ × NamespaceCell}
    (h : x ∈ f.settledCells) (hx : x.1 ∉ f.prune.numbers) : x.2.isEmpty = true := by
  induction f with
  | none => cases h
  | node number decl types children siblings ihChildren ihSiblings =>
    rw [prune] at hx
    rw [settledCells, List.mem_cons, List.mem_append] at h
    by_cases hgone : (types.prune.isNone && children.prune.isNone) = true
    · rw [if_pos hgone] at hx
      rw [Bool.and_eq_true, TypeForest.isNone_iff, isNone_iff] at hgone
      rcases h with rfl | h | h
      · rw [NamespaceCell.isEmpty, hgone.1, hgone.2]
        rfl
      · exact ihChildren h (hgone.2 ▸ List.not_mem_nil)
      · exact ihSiblings h hx
    · rw [if_neg hgone, numbers, List.mem_cons, List.mem_append, not_or, not_or] at hx
      rcases h with rfl | h | h
      · exact absurd rfl hx.1
      · exact ihChildren h hx.2.1
      · exact ihSiblings h hx.2.2

/-- There is nothing in the cell of a type that is cut off. -/
theorem isEmpty_of_mem_settledTypeCells {f : NamespaceForest α} {x : ℕ × TypeCell α}
    (h : x ∈ f.settledTypeCells) (hx : x.1 ∉ f.prune.typeNumbers) : x.2.isEmpty = true := by
  induction f with
  | none => cases h
  | node number decl types children siblings ihChildren ihSiblings =>
    rw [prune] at hx
    rw [settledTypeCells, List.mem_append, List.mem_append] at h
    by_cases hgone : (types.prune.isNone && children.prune.isNone) = true
    · rw [if_pos hgone] at hx
      rw [Bool.and_eq_true, TypeForest.isNone_iff, isNone_iff] at hgone
      rcases h with (h | h) | h
      · exact ihChildren h (hgone.2 ▸ List.not_mem_nil)
      · exact TypeForest.isEmpty_of_mem_settledCells h (hgone.1 ▸ List.not_mem_nil)
      · exact ihSiblings h hx
    · rw [if_neg hgone, typeNumbers, List.mem_append, List.mem_append, not_or, not_or] at hx
      rcases h with (h | h) | h
      · exact ihChildren h hx.1.2
      · exact TypeForest.isEmpty_of_mem_settledCells h hx.1.1
      · exact ihSiblings h hx.2

theorem goneNumbers_subset (f : NamespaceForest α) : f.goneNumbers ⊆ f.numbers := by
  induction f with
  | none => exact List.Subset.refl _
  | node number decl types children siblings ihChildren ihSiblings =>
    rw [goneNumbers, numbers]
    split
    · exact List.cons_subset_cons _ (List.subset_append_of_subset_right _ ihSiblings)
    · exact List.subset_cons_of_subset _ (List.subset_append_of_subset_right _ ihSiblings)

/-- Without the namespaces that are cut off, the outermost ones are those of the pruned forest. -/
theorem without_childMap {f : NamespaceForest α} (hnodup : f.numbers.Nodup) {gone : List ℕ}
    (h : ∀ i ∈ f.numbers, i ∈ gone ↔ i ∈ f.goneNumbers) :
    Walk.without gone f.childMap = f.prune.childMap := by
  induction f with
  | none => rfl
  | node number decl types children siblings _ ihSiblings =>
    rw [numbers, List.nodup_cons, List.mem_append, not_or] at hnodup
    obtain ⟨hnumber, hnodup⟩ := hnodup
    have hsiblings : Walk.without gone siblings.childMap = siblings.prune.childMap := by
      refine ihSiblings hnodup.of_append_right fun i hi => ?_
      have hne : i ≠ number := fun e => hnumber.2 (e ▸ hi)
      rw [h i (List.mem_cons_of_mem _ (List.mem_append_right _ hi)), goneNumbers]
      split
      · rw [List.mem_cons, or_iff_right hne]
      · exact Iff.rfl
    have hfirst := h number List.mem_cons_self
    rw [goneNumbers] at hfirst
    rw [childMap, Walk.without, List.filter_cons, ← Walk.without, hsiblings, prune]
    by_cases hgone : (types.prune.isNone && children.prune.isNone) = true
    · rw [if_pos hgone] at hfirst
      have hmem : gone.contains number = true := by simpa using hfirst
      rw [if_pos hgone, hmem, Bool.not_true, if_neg Bool.false_ne_true]
    · rw [if_neg hgone] at hfirst
      have hmem : gone.contains number = false := by
        simpa [hfirst] using fun h => hnumber.2 (siblings.goneNumbers_subset h)
      rw [if_neg hgone, hmem, Bool.not_false, if_pos rfl, childMap]

end NamespaceForest

/-! ## Walks that settle cells -/

/-- A walk has come to some nodes and left some cells, and nothing else has changed. -/
structure ArenaWalk.Settles (w w' : ArenaWalk α) (nodes : List ArenaNode)
    (namespaceCells : List (ℕ × NamespaceCell)) (typeCells : List (ℕ × TypeCell α)) : Prop where
  pass_eq : w'.arena.pass = w.arena.pass
  refused_eq : w'.arena.refused = w.arena.refused
  exists_visited : ∃ visited, w'.visited = w.visited ++ visited ∧ visited.Perm nodes
  namespaces : Updates w.arena.namespaces w'.arena.namespaces (namespaceCells.map (·.1))
    namespaceCells w.arena.namespaces.length
  types : Updates w.arena.types w'.arena.types (typeCells.map (·.1)) typeCells
    w.arena.types.length

namespace ArenaWalk.Settles

variable {w w' w'' : ArenaWalk α} {nodes nodes' : List ArenaNode}
  {namespaceCells namespaceCells' : List (ℕ × NamespaceCell)}
  {typeCells typeCells' : List (ℕ × TypeCell α)}

theorem refl (w : ArenaWalk α) : w.Settles w [] [] [] where
  pass_eq := rfl
  refused_eq := rfl
  exists_visited := ⟨[], (List.append_nil _).symm, .refl _⟩
  namespaces := .refl _
  types := .refl _

theorem visit (w : ArenaWalk α) (nodes : List ArenaNode) : w.Settles (w.visit nodes) nodes [] [] where
  pass_eq := rfl
  refused_eq := rfl
  exists_visited := ⟨nodes, rfl, .refl nodes⟩
  namespaces := .refl _
  types := .refl _

/-- Two walks that settle different cells, one after the other. -/
theorem trans (h : w.Settles w' nodes namespaceCells typeCells)
    (h' : w'.Settles w'' nodes' namespaceCells' typeCells')
    (hnamespaces : ∀ x ∈ namespaceCells, x.1 ∉ namespaceCells'.map (·.1))
    (htypes : ∀ x ∈ typeCells, x.1 ∉ typeCells'.map (·.1)) :
    w.Settles w'' (nodes ++ nodes') (namespaceCells ++ namespaceCells') (typeCells ++ typeCells') where
  pass_eq := h'.pass_eq.trans h.pass_eq
  refused_eq := h'.refused_eq.trans h.refused_eq
  exists_visited := by
    obtain ⟨visited, hvisited, hperm⟩ := h.exists_visited
    obtain ⟨visited', hvisited', hperm'⟩ := h'.exists_visited
    exact ⟨visited ++ visited', by rw [hvisited', hvisited, List.append_assoc], hperm.append hperm'⟩
  namespaces := by
    rw [List.map_append]
    exact h.namespaces.append h'.namespaces hnamespaces
  types := by
    rw [List.map_append]
    exact h.types.append h'.types htypes

theorem perm (h : w.Settles w' nodes namespaceCells typeCells) (hnodes : nodes.Perm nodes') :
    w.Settles w' nodes' namespaceCells typeCells where
  pass_eq := h.pass_eq
  refused_eq := h.refused_eq
  exists_visited := by
    obtain ⟨visited, hvisited, hperm⟩ := h.exists_visited
    exact ⟨visited, hvisited, hperm.trans hnodes⟩
  namespaces := h.namespaces
  types := h.types

/-- A change to a type that has not been settled yet. -/
theorem changeType {number : ℕ} {cell : TypeCell α}
    (h : w.Settles w' nodes namespaceCells typeCells)
    (hcell : w.arena.types[number]? = some cell) (hnumber : number ∉ typeCells.map (·.1))
    (f : TypeCell α → TypeCell α) :
    ∃ w'', (Walk.changeType number f).run w' = some (f cell, w'') ∧
      w.Settles w'' nodes namespaceCells ((number, f cell) :: typeCells) := by
  have hlt := (List.getElem?_eq_some_iff.1 hcell).1
  have hcell' := h.types.getElem?_eq_of_notMem hcell hnumber
  refine ⟨{ w' with arena := { w'.arena with types := w'.arena.types.set number (f cell) } }, ?_,
    h.pass_eq, h.refused_eq, h.exists_visited, h.namespaces, ?_⟩
  · simp only [Walk.changeType, StateT.run, hcell']
    rfl
  · refine h.types.set hlt (f cell) (fun x hx => ⟨hx, fun e => hnumber ?_⟩)
      (List.subset_cons_self _ _)
    exact e ▸ List.mem_map_of_mem hx

/-- A change to a namespace, whose cell takes the place of the one that it was settled with. -/
theorem changeNamespace {number : ℕ} {cell : NamespaceCell} {rest : List (ℕ × NamespaceCell)}
    (h : w.Settles w' nodes namespaceCells typeCells)
    (hlt : number < w.arena.namespaces.length) (hcell : w'.arena.namespaces[number]? = some cell)
    (hrest : ∀ x ∈ rest, x ∈ namespaceCells ∧ x.1 ≠ number)
    (hsub : namespaceCells.map (·.1) ⊆ number :: rest.map (·.1))
    (f : NamespaceCell → NamespaceCell) :
    ∃ w'', (Walk.changeNamespace number f).run w' = some (f cell, w'') ∧
      w.Settles w'' nodes ((number, f cell) :: rest) typeCells := by
  refine ⟨{ w' with arena :=
    { w'.arena with namespaces := w'.arena.namespaces.set number (f cell) } }, ?_,
    h.pass_eq, h.refused_eq, h.exists_visited, h.namespaces.set hlt (f cell) hrest hsub, h.types⟩
  simp only [Walk.changeNamespace, StateT.run, hcell]
  rfl

/-- The child namespaces are settled, and then the namespace that they stand in. -/
theorem changeChildren {number : ℕ} {name : String} {types : List (Symbol × ℕ)}
    {children : NamespaceForest α}
    (hcell : w.arena.namespaces[number]? = some ⟨name, children.childMap, types⟩)
    (hnodup : (number :: children.numbers).Nodup)
    (hchildren : (w.visit [.ofNamespace number]).Settles w' children.visits children.settledCells
      children.settledTypeCells) :
    ∃ w'', (Walk.changeNamespace number fun cell =>
        { cell with children := Walk.without children.goneNumbers cell.children }).run w' =
        some (⟨name, children.prune.childMap, types⟩, w'') ∧
      w.Settles w'' (.ofNamespace number :: children.visits)
        ((number, ⟨name, children.prune.childMap, types⟩) :: children.settledCells)
        children.settledTypeCells := by
  obtain ⟨hnumber, hnodup⟩ := List.nodup_cons.1 hnodup
  rw [← children.map_fst_settledCells] at hnumber
  have hsettles := (visit w [.ofNamespace number]).trans hchildren (List.forall_mem_nil _)
    (List.forall_mem_nil _)
  simp only [List.nil_append] at hsettles
  have hrest : ∀ x ∈ children.settledCells, x ∈ children.settledCells ∧ x.1 ≠ number :=
    fun x hx => ⟨hx, fun e => hnumber (e ▸ List.mem_map_of_mem hx)⟩
  have hchange := hsettles.changeNamespace (List.getElem?_eq_some_iff.1 hcell).1
    (hsettles.namespaces.getElem?_eq_of_notMem hcell hnumber) hrest (List.subset_cons_self _ _)
    fun cell => { cell with children := Walk.without children.goneNumbers cell.children }
  have hkept : Walk.without children.goneNumbers children.childMap = children.prune.childMap :=
    NamespaceForest.without_childMap hnodup fun _ _ => Iff.rfl
  simp only [hkept] at hchange
  exact hchange

/-- The types of a namespace are settled, and then the namespace once more. -/
theorem changeTypes {number : ℕ} {name : String} {children : List (Symbol × ℕ)}
    {types : TypeForest α} {rest : List (ℕ × NamespaceCell)}
    (h : w.Settles w' nodes ((number, ⟨name, children, types.childMap⟩) :: rest) typeCells)
    (hlt : number < w.arena.namespaces.length) (hrest : number ∉ rest.map (·.1))
    (hnodup : types.numbers.Nodup) (htypes : w'.Settles w'' types.visits [] types.settledCells)
    (hdisjoint : ∀ i ∈ typeCells.map (·.1), i ∉ types.numbers) :
    ∃ after, (Walk.changeNamespace number fun cell =>
        { cell with types := Walk.without types.goneNumbers cell.types }).run w'' =
        some (⟨name, children, types.prune.childMap⟩, after) ∧
      w.Settles after (nodes ++ types.visits)
        ((number, ⟨name, children, types.prune.childMap⟩) :: rest)
        (typeCells ++ types.settledCells) := by
  have hsettles := h.trans htypes (fun _ _ => List.not_mem_nil) fun x hx hin => by
    rw [types.map_fst_settledCells] at hin
    exact hdisjoint x.1 (List.mem_map_of_mem hx) hin
  rw [List.append_nil] at hsettles
  have hchange := hsettles.changeNamespace hlt
    (hsettles.namespaces.getElem?_eq _ List.mem_cons_self)
    (fun x hx => ⟨List.mem_cons_of_mem _ hx, fun e => hrest (e ▸ List.mem_map_of_mem hx)⟩)
    (List.Subset.refl _)
    fun cell => { cell with types := Walk.without types.goneNumbers cell.types }
  have hkept : Walk.without types.goneNumbers types.childMap = types.prune.childMap :=
    TypeForest.without_childMap hnodup fun _ _ => Iff.rfl
  simp only [hkept] at hchange
  exact hchange

end ArenaWalk.Settles

namespace Walk

/-- A walk over several numbers asks about the first one, and then about the others. -/
theorem run_filterM_cons {p : ℕ → Walk α Bool} {w w' w'' : ArenaWalk α} {number : ℕ}
    {numbers gone : List ℕ} {b : Bool} (hfirst : (p number).run w = some (b, w'))
    (hothers : (numbers.filterM p).run w' = some (gone, w'')) :
    ((number :: numbers).filterM p).run w = some (if b then number :: gone else gone, w'') := by
  rw [filterM_cons]
  simp only [StateT.run_bind, hfirst, Option.bind_eq_bind, Option.bind_some, hothers, StateT.run_pure]
  rfl

/-- The nested types are settled, and then the type. -/
theorem exists_pruneType {w : ArenaWalk α} {number : ℕ} {type : EnclosingType}
    {members : List (Symbol × α)} {nested : TypeForest α}
    (hcell : w.arena.types[number]? = some ⟨type, nested.childMap, members⟩)
    (hnodup : (number :: nested.numbers).Nodup)
    (hnested : ∃ w', (∀ depth, nested.height ≤ depth →
        ((nested.childMap.map (·.2)).filterM (pruneType depth)).run (w.visit [.ofType number]) =
          some (nested.goneNumbers, w')) ∧
      (w.visit [.ofType number]).Settles w' nested.visits [] nested.settledCells) :
    ∃ w', (∀ depth, nested.height ≤ depth → (pruneType (depth + 1) number).run w =
        some (members.isEmpty && nested.prune.isNone, w')) ∧
      w.Settles w' (.ofType number :: nested.visits) []
        ((number, ⟨type, nested.prune.childMap, members⟩) :: nested.settledCells) := by
  obtain ⟨hnumber, hnodup⟩ := List.nodup_cons.1 hnodup
  obtain ⟨w', hrun, hsettles⟩ := hnested
  have hsettles' := (ArenaWalk.Settles.visit w [.ofType number]).trans hsettles
    (List.forall_mem_nil _) (List.forall_mem_nil _)
  obtain ⟨w'', hrun', hsettles''⟩ := hsettles'.changeType hcell
    (by rwa [List.nil_append, nested.map_fst_settledCells])
    fun cell => { cell with nested := without nested.goneNumbers cell.nested }
  have hkept : without nested.goneNumbers nested.childMap = nested.prune.childMap :=
    TypeForest.without_childMap hnodup fun _ _ => Iff.rfl
  simp only [hkept] at hrun' hsettles''
  refine ⟨w'', fun depth hdepth => ?_, hsettles''⟩
  rw [pruneType]
  simp only [StateT.run_bind, run_visitType hcell, Option.bind_eq_bind, Option.bind_some,
    hrun depth hdepth, hrun', StateT.run_pure, TypeCell.isEmpty, TypeForest.isEmpty_childMap,
    Bool.and_comm members.isEmpty]
  rfl

/-- The types that are cut off are reported, and all types are settled. -/
theorem exists_filterM_pruneType (f : TypeForest α) {w : ArenaWalk α}
    (hcells : ∀ x ∈ f.cells, w.arena.types[x.1]? = some x.2) (hnodup : f.numbers.Nodup) :
    ∃ w', (∀ depth, f.height ≤ depth →
        ((f.childMap.map (·.2)).filterM (pruneType depth)).run w = some (f.goneNumbers, w')) ∧
      w.Settles w' f.visits [] f.settledCells := by
  induction f generalizing w with
  | none => exact ⟨w, fun _ _ => rfl, .refl w⟩
  | node number type members nested siblings ihNested ihSiblings =>
    simp only [TypeForest.cells, List.forall_mem_cons, List.forall_mem_append] at hcells
    obtain ⟨hcell, hnested, hsiblings⟩ := hcells
    rw [TypeForest.numbers, ← List.cons_append, List.nodup_append'] at hnodup
    obtain ⟨hfirst, hothers, hdisjoint⟩ := hnodup
    obtain ⟨w', hrun, hsettles⟩ := exists_pruneType hcell hfirst
      (ihNested (w := w.visit [.ofType number]) hnested (List.nodup_cons.1 hfirst).2)
    have hsettled : ∀ i ∈ ((number, ⟨type, nested.prune.childMap, members⟩) ::
        nested.settledCells).map (·.1), i ∉ siblings.numbers := by
      intro i hi hin
      rw [List.map_cons, nested.map_fst_settledCells] at hi
      exact hdisjoint hi hin
    -- the siblings have not been settled yet
    have hkept : ∀ x ∈ siblings.cells, w'.arena.types[x.1]? = some x.2 := by
      intro x hx
      exact hsettles.types.getElem?_eq_of_notMem (hsiblings x hx) fun hin =>
        hsettled x.1 hin (TypeForest.mem_numbers_of_mem_cells hx)
    obtain ⟨w'', hrun', hsettles'⟩ := ihSiblings hkept hothers
    refine ⟨w'', fun depth hdepth => ?_, ?_⟩
    · rw [TypeForest.height, Nat.max_le] at hdepth
      obtain ⟨depth, rfl⟩ := Nat.exists_eq_add_of_le' (Nat.le_trans (Nat.le_add_left 1 _) hdepth.1)
      exact run_filterM_cons (hrun depth (Nat.le_of_succ_le_succ hdepth.1)) (hrun' _ hdepth.2)
    · have htrans := hsettles.trans hsettles' (List.forall_mem_nil _) fun x hx hin => by
        rw [siblings.map_fst_settledCells] at hin
        exact hsettled x.1 (List.mem_map_of_mem hx) hin
      simpa [TypeForest.visits, TypeForest.numbers, TypeForest.settledCells] using htrans

/-- The child namespaces and the types are settled, and after each of the two the namespace. -/
theorem exists_pruneNamespace {w : ArenaWalk α} {number : ℕ} {name : String} {types : TypeForest α}
    {children : NamespaceForest α}
    (hcell : w.arena.namespaces[number]? = some ⟨name, children.childMap, types.childMap⟩)
    (hnodup : (number :: children.numbers).Nodup)
    (htypes : ∀ x ∈ types.cells, w.arena.types[x.1]? = some x.2)
    (htypesNodup : (types.numbers ++ children.typeNumbers).Nodup)
    (hchildren : ∃ w', (∀ depth, children.height ≤ depth →
        ((children.childMap.map (·.2)).filterM (pruneNamespace depth)).run
          (w.visit [.ofNamespace number]) = some (children.goneNumbers, w')) ∧
      (w.visit [.ofNamespace number]).Settles w' children.visits children.settledCells
        children.settledTypeCells) :
    ∃ w', (∀ depth, types.height ≤ depth → children.height ≤ depth →
        (pruneNamespace (depth + 1) number).run w =
          some (types.prune.isNone && children.prune.isNone, w')) ∧
      w.Settles w' (.ofNamespace number :: (types.visits ++ children.visits))
        ((number, ⟨name, children.prune.childMap, types.prune.childMap⟩) :: children.settledCells)
        (children.settledTypeCells ++ types.settledCells) := by
  obtain ⟨w₁, hrun₁, hsettles₁⟩ := hchildren
  obtain ⟨w₂, hrun₂, hsettles₂⟩ := ArenaWalk.Settles.changeChildren hcell hnodup hsettles₁
  have hsettled : ∀ i ∈ children.settledTypeCells.map (·.1), i ∉ types.numbers := by
    intro i hi hin
    exact List.disjoint_of_nodup_append htypesNodup hin
      (children.map_fst_settledTypeCells_perm.mem_iff.1 hi)
  have hkept : ∀ x ∈ types.cells, w₂.arena.types[x.1]? = some x.2 := by
    intro x hx
    exact hsettles₂.types.getElem?_eq_of_notMem (htypes x hx) fun hin =>
      hsettled x.1 hin (TypeForest.mem_numbers_of_mem_cells hx)
  obtain ⟨w₃, hrun₃, hsettles₃⟩ := exists_filterM_pruneType types hkept htypesNodup.of_append_left
  obtain ⟨w₄, hrun₄, hsettles₄⟩ := hsettles₂.changeTypes (List.getElem?_eq_some_iff.1 hcell).1
    (by rw [children.map_fst_settledCells]; exact (List.nodup_cons.1 hnodup).1)
    htypesNodup.of_append_left hsettles₃ hsettled
  refine ⟨w₄, fun depth htypesDepth hchildrenDepth => ?_,
    hsettles₄.perm (List.perm_append_comm.cons _)⟩
  rw [pruneNamespace]
  simp only [StateT.run_bind, run_visitNamespace hcell, Option.bind_eq_bind, Option.bind_some,
    hrun₁ depth hchildrenDepth, hrun₂, hrun₃ depth htypesDepth, hrun₄, StateT.run_pure,
    NamespaceCell.isEmpty, TypeForest.isEmpty_childMap, NamespaceForest.isEmpty_childMap,
    Bool.and_comm children.prune.isNone]
  rfl

/-- The namespaces that are cut off are reported, and all namespaces and their types are settled. -/
theorem exists_filterM_pruneNamespace (f : NamespaceForest α) {w : ArenaWalk α}
    (hcells : ∀ x ∈ f.cells, w.arena.namespaces[x.1]? = some x.2) (hnodup : f.numbers.Nodup)
    (htypes : ∀ x ∈ f.typeCells, w.arena.types[x.1]? = some x.2)
    (htypesNodup : f.typeNumbers.Nodup) :
    ∃ w', (∀ depth, f.height ≤ depth →
        ((f.childMap.map (·.2)).filterM (pruneNamespace depth)).run w = some (f.goneNumbers, w')) ∧
      w.Settles w' f.visits f.settledCells f.settledTypeCells := by
  induction f generalizing w with
  | none => exact ⟨w, fun _ _ => rfl, .refl w⟩
  | node number decl types children siblings ihChildren ihSiblings =>
    simp only [NamespaceForest.cells, NamespaceForest.typeCells, List.forall_mem_cons,
      List.forall_mem_append] at hcells htypes
    obtain ⟨hcell, hchildren, hsiblings⟩ := hcells
    obtain ⟨⟨htypes, hchildTypes⟩, hsiblingTypes⟩ := htypes
    rw [NamespaceForest.numbers, ← List.cons_append, List.nodup_append'] at hnodup
    obtain ⟨hfirst, hothers, hdisjoint⟩ := hnodup
    rw [NamespaceForest.typeNumbers, List.nodup_append'] at htypesNodup
    obtain ⟨hfirstTypes, hotherTypes, hdisjointTypes⟩ := htypesNodup
    obtain ⟨w', hrun, hsettles⟩ := exists_pruneNamespace hcell hfirst htypes hfirstTypes
      (ihChildren (w := w.visit [.ofNamespace number]) hchildren (List.nodup_cons.1 hfirst).2
        hchildTypes hfirstTypes.of_append_right)
    have hsettled : ∀ i ∈ ((number, ⟨decl.name, children.prune.childMap, types.prune.childMap⟩) ::
        children.settledCells).map (·.1), i ∉ siblings.numbers := by
      intro i hi hin
      rw [List.map_cons, children.map_fst_settledCells] at hi
      exact hdisjoint hi hin
    have hsettledTypes : ∀ i ∈ (children.settledTypeCells ++ types.settledCells).map (·.1),
        i ∉ siblings.typeNumbers := by
      intro i hi hin
      rw [List.map_append, types.map_fst_settledCells, List.mem_append,
        children.map_fst_settledTypeCells_perm.mem_iff] at hi
      exact hdisjointTypes (List.mem_append.2 hi.symm) hin
    -- the siblings have not been settled yet
    have hkept : ∀ x ∈ siblings.cells, w'.arena.namespaces[x.1]? = some x.2 := by
      intro x hx
      exact hsettles.namespaces.getElem?_eq_of_notMem (hsiblings x hx) fun hin =>
        hsettled x.1 hin (NamespaceForest.mem_numbers_of_mem_cells hx)
    have hkeptTypes : ∀ x ∈ siblings.typeCells, w'.arena.types[x.1]? = some x.2 := by
      intro x hx
      have hin' : x.1 ∈ siblings.typeNumbers :=
        siblings.map_fst_typeCells ▸ List.mem_map_of_mem hx
      exact hsettles.types.getElem?_eq_of_notMem (hsiblingTypes x hx) fun hin =>
        hsettledTypes x.1 hin hin'
    obtain ⟨w'', hrun', hsettles'⟩ := ihSiblings hkept hothers hkeptTypes hotherTypes
    refine ⟨w'', fun depth hdepth => ?_, ?_⟩
    · rw [NamespaceForest.height, Nat.max_le] at hdepth
      obtain ⟨hbelow, hbeside⟩ := hdepth
      obtain ⟨depth, rfl⟩ := Nat.exists_eq_add_of_le' (Nat.le_trans (Nat.le_add_left 1 _) hbelow)
      obtain ⟨htypesDepth, hchildrenDepth⟩ := Nat.max_le.1 (Nat.le_of_succ_le_succ hbelow)
      exact run_filterM_cons (hrun depth htypesDepth hchildrenDepth) (hrun' _ hbeside)
    · refine hsettles.trans hsettles' (fun x hx hin => ?_) fun x hx hin => ?_
      · rw [siblings.map_fst_settledCells] at hin
        exact hsettled x.1 (List.mem_map_of_mem hx) hin
      · rw [siblings.map_fst_settledTypeCells_perm.mem_iff] at hin
        exact hsettledTypes x.1 (List.mem_map_of_mem hx) hin

end Walk

/-! ## Arenas -/

namespace DeclarationArena.Stores

variable {a : DeclarationArena α} {t : DeclarationTree α}

/-- The arena after a walk that settled all cells of a tree stores the pruned tree. -/
theorem prune_of_settles (h : a.Stores t) {w : ArenaWalk α}
    (hsettles : ArenaWalk.Settles ⟨a, []⟩ w t.visits
      ((0, ⟨"", t.namespaces.prune.childMap, t.types.prune.childMap⟩) :: t.namespaces.settledCells)
      (t.namespaces.settledTypeCells ++ t.types.settledCells)) :
    w.arena.Stores t.prune where
  pass_eq := hsettles.pass_eq.trans h.pass_eq
  refused_eq := hsettles.refused_eq.trans h.refused_eq
  length_namespaces := hsettles.namespaces.length_eq.trans h.length_namespaces
  length_types := hsettles.types.length_eq.trans h.length_types
  namespaces := by
    refine h.namespaces.update hsettles.namespaces ?_ ?_ fun x hx hkept => ?_
    · rw [t.map_fst_namespaceCells, List.map_cons, t.namespaces.map_fst_settledCells]
      exact List.Subset.refl _
    · exact List.cons_subset_cons _ t.namespaces.cells_prune_subset
    · rw [t.prune.map_fst_namespaceCells, DeclarationTree.namespaceNumbers, List.mem_cons,
        not_or] at hkept
      rcases List.mem_cons.1 hx with rfl | hx
      · exact absurd rfl hkept.1
      · exact NamespaceForest.isEmpty_of_mem_settledCells hx hkept.2
  types := by
    refine h.types.update hsettles.types (fun i hi => ?_) (fun x hx => ?_) fun x hx hkept => ?_
    · rw [t.map_fst_typeCells, DeclarationTree.typeNumbers, List.mem_append] at hi
      rw [List.map_append, t.types.map_fst_settledCells, List.mem_append,
        t.namespaces.map_fst_settledTypeCells_perm.mem_iff]
      exact hi.symm
    · rw [List.mem_append]
      exact (List.mem_append.1 hx).symm.imp (t.namespaces.typeCells_prune_subset ·)
        (t.types.cells_prune_subset ·)
    · rw [t.prune.map_fst_typeCells, DeclarationTree.typeNumbers, List.mem_append, not_or] at hkept
      rcases List.mem_append.1 hx with hx | hx
      · exact NamespaceForest.isEmpty_of_mem_settledTypeCells hx hkept.2
      · exact TypeForest.isEmpty_of_mem_settledCells hx hkept.1

/-- Pruning comes to every node once, and leaves an arena that stores the pruned tree. -/
theorem exists_prune (h : a.Stores t) (ht : t.IsNumbered) :
    ∃ w, (∀ depth, t.height ≤ depth →
        (Walk.prune depth).run ⟨a, []⟩ = some (t.prune.isEmpty, w)) ∧
      w.visited.Perm t.visits ∧ w.arena.Stores t.prune := by
  have htypes := h.types.getElem?_eq
  rw [DeclarationTree.typeCells, List.forall_mem_append] at htypes
  have hnodup := ht.namespaces_nodup
  have htypesNodup := ht.types_nodup
  obtain ⟨w, hrun, hsettles⟩ := Walk.exists_pruneNamespace (w := ⟨a, []⟩) h.getElem?_zero hnodup
    htypes.1 htypesNodup <| Walk.exists_filterM_pruneNamespace t.namespaces
      (fun x hx => h.namespaces.getElem?_eq x (List.mem_cons_of_mem _ hx))
      (List.nodup_cons.1 hnodup).2 htypes.2 htypesNodup.of_append_right
  obtain ⟨visited, hvisited, hperm⟩ := hsettles.exists_visited
  rw [List.nil_append] at hvisited
  refine ⟨w, fun depth hdepth => ?_, hvisited ▸ hperm, h.prune_of_settles hsettles⟩
  obtain ⟨depth, rfl⟩ := Nat.exists_eq_add_of_le' (Nat.le_trans (Nat.le_add_left 1 _) hdepth)
  obtain ⟨htypesDepth, hnamespacesDepth⟩ := Nat.max_le.1 (Nat.le_of_succ_le_succ hdepth)
  exact hrun depth htypesDepth hnamespacesDepth

theorem exists_prune? (h : a.Stores t) (ht : t.IsNumbered) :
    ∃ a', a.prune? = some a' ∧ a'.Stores t.prune := by
  obtain ⟨w, hrun, -, hstores⟩ := h.exists_prune ht
  exact ⟨w.arena, by rw [prune?, hrun _ (h.height_le_size ht), Option.map_some], hstores⟩

end DeclarationArena.Stores
end NativeBindings
