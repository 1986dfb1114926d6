import NativeBindings.Proofs.DeclarationArena.Tables

/-!
# Namespaces of a growing arena

The path of a container leads over the namespaces that are in the arena. The first one that is missing
is entered into the cell before it, and the others behind it stand at the end of the table, as in the
tree that the arena stores.

## Main definitions

- `DeclarationArena.HoldsNamespaces` — the namespaces of a forest stand below a namespace

## Main statements

- `DeclarationArena.exists_ensureNamespaces` — what becomes of the table
- `DeclarationArena.Stores.exists_ensureNamespaces` — namespaces are added as in the tree
-/

namespace NativeBindings

variable {α : Type}

namespace NamespaceForest

/-- The number of the namespace at the end of a path that begins in a namespace. -/
def endOf? (p : ℕ) (ns : List Namespace) (f : NamespaceForest α) : Option ℕ :=
  if ns.isEmpty then some p else f.numberAt? ns

end NamespaceForest

namespace DeclarationArena

variable {a : DeclarationArena α}

theorem setChildrenOf_self {p : ℕ} {cell : NamespaceCell} (h : a.namespaces[p]? = some cell) :
    a.setChildrenOf cell.children p = a := by
  rw [setChildrenOf, modify_eq_self h rfl]

theorem getElem?_setChildrenOf_of_ne {p i : ℕ} (h : p ≠ i) (children : List (Symbol × ℕ)) :
    (a.setChildrenOf children p).namespaces[i]? = a.namespaces[i]? :=
  List.getElem?_modify_ne _ _ h

theorem getElem?_setChildrenOf_self {p : ℕ} {cell : NamespaceCell}
    (h : a.namespaces[p]? = some cell) (children : List (Symbol × ℕ)) :
    (a.setChildrenOf children p).namespaces[p]? = some { cell with children } := by
  rw [setChildrenOf, List.getElem?_modify_eq, h]
  rfl

@[simp] theorem length_setChildrenOf (p : ℕ) (children : List (Symbol × ℕ)) :
    (a.setChildrenOf children p).namespaces.length = a.namespaces.length :=
  List.length_modify _ _ _

@[simp] theorem length_addNamespace (a : DeclarationArena α) (n : Namespace) :
    (a.addNamespace n).namespaces.length = a.namespaces.length + 1 :=
  List.length_append

theorem getElem?_addNamespace (a : DeclarationArena α) (n : Namespace) :
    (a.addNamespace n).namespaces[a.namespaces.length]? = some ⟨n.name, [], []⟩ :=
  List.getElem?_concat_length

theorem ensureNamespaces_of_lookup_eq_some {p child : ℕ} {cell : NamespaceCell} {n : Namespace}
    {ns : List Namespace} (hcell : a.namespaces[p]? = some cell)
    (h : cell.children.lookup n.id = some child) :
    a.ensureNamespaces p (n :: ns) = a.ensureNamespaces child ns := by
  rw [ensureNamespaces, hcell]
  simp only [Option.bind_eq_bind, Option.bind_some, h]

/-- New namespaces are added below a namespace that does not have the first of them. -/
theorem exists_ensureNamespaces_of_lookup_eq_none (ns : List Namespace) {p : ℕ}
    {cell : NamespaceCell} (hcell : a.namespaces[p]? = some cell)
    (hnone : ∀ n ∈ ns.head?, cell.children.lookup n.id = none) :
    let grown : NamespaceForest α × ℕ := NamespaceForest.grow a.namespaces.length ns
    ∃ q table, a.ensureNamespaces p ns = some (q, { a with namespaces := table }) ∧
      grown.1.endOf? p ns = some q ∧
      Updates (a.setChildrenOf (cell.children ++ grown.1.childMap) p).namespaces table []
        grown.1.cells grown.2 := by
  induction ns generalizing a p cell with
  | nil =>
    refine ⟨p, a.namespaces, rfl, rfl, rfl, List.forall_mem_nil _, fun i _ _ => ?_⟩
    rw [NamespaceForest.grow, NamespaceForest.childMap, List.append_nil, setChildrenOf_self hcell]
  | cons n ns ih =>
    let number := a.namespaces.length
    let entered := a.setChildrenOf (cell.children ++ [(n.id, number)]) p
    have hlength : entered.namespaces.length = number := length_setChildrenOf _ _
    have hnew := entered.getElem?_addNamespace n
    rw [hlength] at hnew
    obtain ⟨q, table, hrun, hend, hupdates⟩ := ih hnew fun _ _ => rfl
    rw [length_addNamespace, hlength] at hend hupdates
    refine ⟨q, table, ?_, ?_, ?_⟩
    · rw [ensureNamespaces, hcell]
      simp only [Option.bind_eq_bind, Option.bind_some, hnone n rfl]
      exact hrun
    · simpa only [NamespaceForest.endOf?, NamespaceForest.grow, NamespaceForest.numberAt?,
        List.isEmpty_cons, Bool.false_eq_true, if_false, if_true] using hend
    · rw [NamespaceForest.grow, NamespaceForest.cells, NamespaceForest.cells, List.append_nil]
      exact hupdates.of_concat hlength.symm

/-- The namespaces of a forest stand in the table, the outermost ones below a namespace and behind
other children of it. -/
structure HoldsNamespaces (a : DeclarationArena α) (p : ℕ) (before : List (Symbol × ℕ))
    (f : NamespaceForest α) : Prop where
  exists_cell : ∃ cell, a.namespaces[p]? = some cell ∧ cell.children = before ++ f.childMap
  getElem?_eq : ∀ x ∈ f.cells, a.namespaces[x.1]? = some x.2
  nodup : (p :: f.numbers).Nodup

namespace HoldsNamespaces

variable {p number next : ℕ} {before : List (Symbol × ℕ)} {decl : Namespace} {types : TypeForest α}
  {inner others : NamespaceForest α}

theorem setChildrenOf_self {f : NamespaceForest α} (h : a.HoldsNamespaces p before f) :
    a.setChildrenOf (before ++ f.childMap) p = a := by
  obtain ⟨cell, hcell, hchildren⟩ := h.exists_cell
  rw [← hchildren, DeclarationArena.setChildrenOf_self hcell]

theorem lt_length {f : NamespaceForest α} (h : a.HoldsNamespaces p before f) {i : ℕ}
    (hi : i ∈ f.numbers) : i < a.namespaces.length := by
  rw [← f.map_fst_cells] at hi
  obtain ⟨x, hx, rfl⟩ := List.mem_map.1 hi
  exact (List.getElem?_eq_some_iff.1 (h.getElem?_eq x hx)).1

theorem getElem?_number (h : a.HoldsNamespaces p before (.node number decl types inner others)) :
    a.namespaces[number]? = some ⟨decl.name, inner.childMap, types.childMap⟩ :=
  h.getElem?_eq _ List.mem_cons_self

/-- The first namespace holds its children, and the namespace above it the others. -/
theorem children (h : a.HoldsNamespaces p before (.node number decl types inner others)) :
    a.HoldsNamespaces number [] inner where
  exists_cell := ⟨_, h.getElem?_number, rfl⟩
  getElem?_eq := fun x hx =>
    h.getElem?_eq x (List.mem_cons_of_mem _ (List.mem_append_left _ hx))
  nodup := (List.nodup_cons.1 h.nodup).2.sublist
    ((List.sublist_append_left inner.numbers others.numbers).cons_cons number)

theorem siblings (h : a.HoldsNamespaces p before (.node number decl types inner others)) :
    a.HoldsNamespaces p (before ++ [(decl.id, number)]) others where
  exists_cell := by
    obtain ⟨cell, hcell, hchildren⟩ := h.exists_cell
    exact ⟨cell, hcell, by rw [hchildren, NamespaceForest.childMap, List.append_cons]⟩
  getElem?_eq := fun x hx =>
    h.getElem?_eq x (List.mem_cons_of_mem _ (List.mem_append_right _ hx))
  nodup := h.nodup.sublist
    (((List.sublist_append_right inner.numbers others.numbers).cons number).cons_cons p)

/-- Namespaces that are added below the first one. -/
theorem updates_of_children {grown : NamespaceForest α} {table : List NamespaceCell}
    (h : a.HoldsNamespaces p before (.node number decl types inner others))
    (hupdates : Updates (a.setChildrenOf grown.childMap number).namespaces table inner.numbers
      grown.cells next) :
    Updates (a.setChildrenOf
        (before ++ (NamespaceForest.node number decl types grown others).childMap) p).namespaces
      table (NamespaceForest.node number decl types inner others).numbers
      (NamespaceForest.node number decl types grown others).cells next := by
  have hself := h.setChildrenOf_self
  rw [NamespaceForest.childMap] at hself ⊢
  have hnodup := (List.nodup_cons.1 h.nodup).2
  rw [NamespaceForest.numbers, List.nodup_cons, List.mem_append, not_or] at hnodup
  rw [hself]
  -- outside of the children, only the namespace that they stand in changes
  have hother : ∀ i < a.namespaces.length, i ∉ inner.numbers → number ≠ i →
      table[i]? = a.namespaces[i]? := by
    intro i hi hchild hne
    rw [hupdates.getElem?_of_notMem i (by rwa [length_setChildrenOf]) hchild,
      getElem?_setChildrenOf_of_ne hne]
  refine ⟨hupdates.length_eq, ?_, fun i hi hnumbers => ?_⟩
  · simp only [NamespaceForest.cells, List.forall_mem_cons, List.forall_mem_append]
    refine ⟨?_, hupdates.getElem?_eq, fun x hx => ?_⟩
    · rw [hupdates.getElem?_of_notMem number _ hnodup.1.1,
        getElem?_setChildrenOf_self h.getElem?_number]
      rw [length_setChildrenOf]
      exact h.lt_length List.mem_cons_self
    · have hx' := NamespaceForest.mem_numbers_of_mem_cells hx
      rw [hother x.1 (h.siblings.lt_length hx') ?_ (fun e => hnodup.1.2 (e ▸ hx'))]
      · exact h.siblings.getElem?_eq x hx
      · exact fun hchild => List.disjoint_of_nodup_append hnodup.2 hchild hx'
  · simp only [NamespaceForest.numbers, List.mem_cons, List.mem_append, not_or] at hnumbers
    exact hother i hi hnumbers.2.1 (Ne.symm hnumbers.1)

/-- Namespaces that are added behind or below the other ones. -/
theorem updates_of_siblings {grown : NamespaceForest α} {table : List NamespaceCell}
    (h : a.HoldsNamespaces p before (.node number decl types inner others))
    (hupdates : Updates
      (a.setChildrenOf (before ++ [(decl.id, number)] ++ grown.childMap) p).namespaces table
      others.numbers grown.cells next) :
    Updates (a.setChildrenOf
        (before ++ (NamespaceForest.node number decl types inner grown).childMap) p).namespaces
      table (NamespaceForest.node number decl types inner others).numbers
      (NamespaceForest.node number decl types inner grown).cells next := by
  rw [← List.append_cons] at hupdates
  have hnodup := h.nodup
  simp only [NamespaceForest.numbers, List.nodup_cons, List.mem_cons, List.mem_append, not_or]
    at hnodup
  have hother : ∀ i < a.namespaces.length, i ∉ others.numbers → p ≠ i →
      table[i]? = a.namespaces[i]? := by
    intro i hi hsibling hne
    rw [hupdates.getElem?_of_notMem i (by rwa [length_setChildrenOf]) hsibling,
      getElem?_setChildrenOf_of_ne hne]
  refine ⟨hupdates.length_eq, ?_, fun i hi hnumbers => hupdates.getElem?_of_notMem i hi fun hi' => ?_⟩
  · simp only [NamespaceForest.cells, List.forall_mem_cons, List.forall_mem_append]
    refine ⟨?_, fun x hx => ?_, hupdates.getElem?_eq⟩
    · rw [hother number (h.lt_length List.mem_cons_self) hnodup.2.1.2 hnodup.1.1]
      exact h.getElem?_number
    · have hx' := NamespaceForest.mem_numbers_of_mem_cells hx
      rw [hother x.1 (h.children.lt_length hx') ?_ (fun e => hnodup.1.2.1 (e ▸ hx'))]
      · exact h.children.getElem?_eq x hx
      · exact fun hsibling => List.disjoint_of_nodup_append hnodup.2.2 hx' hsibling
  · exact hnumbers (List.mem_cons_of_mem _ (List.mem_append_right _ hi'))

end HoldsNamespaces

/-- The namespaces of a path are found where they are, and added where they are missing. -/
theorem exists_ensureNamespaces (f : NamespaceForest α) (ns : List Namespace) {p : ℕ}
    {before : List (Symbol × ℕ)} (h : a.HoldsNamespaces p before f)
    (hbefore : ∀ n ∈ ns.head?, before.lookup n.id = none) :
    let grown := f.ensure a.namespaces.length ns
    ∃ q table, a.ensureNamespaces p ns = some (q, { a with namespaces := table }) ∧
      grown.1.endOf? p ns = some q ∧
      Updates (a.setChildrenOf (before ++ grown.1.childMap) p).namespaces table f.numbers
        grown.1.cells grown.2 := by
  obtain ⟨cell, hcell, hchildren⟩ := h.exists_cell
  induction f generalizing ns p cell before with
  | none =>
    rw [NamespaceForest.childMap, List.append_nil] at hchildren
    subst hchildren
    have hgrow : (NamespaceForest.none : NamespaceForest α).ensure a.namespaces.length ns =
        NamespaceForest.grow a.namespaces.length ns := by
      cases ns <;> rfl
    rw [hgrow]
    exact exists_ensureNamespaces_of_lookup_eq_none ns hcell hbefore
  | node number decl types children siblings ihChildren ihSiblings =>
    cases ns with
    | nil =>
      refine ⟨p, a.namespaces, rfl, rfl, rfl, h.getElem?_eq, fun i _ _ => ?_⟩
      rw [NamespaceForest.ensure, h.setChildrenOf_self]
    | cons n ns =>
      have hnone : before.lookup n.id = none := hbefore n rfl
      by_cases hid : decl.id = n.id
      · obtain ⟨q, table, hrun, hend, hupdates⟩ :=
          ihChildren ns h.children (fun _ _ => rfl) _ h.getElem?_number rfl
        have hfound : cell.children.lookup n.id = some number := by
          simp [hchildren, List.lookup_append, hnone, NamespaceForest.childMap, hid]
        rw [NamespaceForest.ensure, if_pos hid]
        refine ⟨q, table, ?_, ?_, h.updates_of_children hupdates⟩
        · rwa [ensureNamespaces_of_lookup_eq_some hcell hfound]
        · simpa [NamespaceForest.endOf?, NamespaceForest.numberAt?, hid] using hend
      · have hbefore' : ∀ m ∈ (n :: ns).head?,
            (before ++ [(decl.id, number)]).lookup m.id = none := by
          intro m hm
          obtain rfl : n = m := Option.some.inj hm
          simp [List.lookup_append, hnone, Ne.symm hid]
        obtain ⟨cell', hcell', hchildren'⟩ := h.siblings.exists_cell
        obtain ⟨q, table, hrun, hend, hupdates⟩ :=
          ihSiblings (n :: ns) h.siblings hbefore' cell' hcell' hchildren'
        rw [NamespaceForest.ensure, if_neg hid]
        refine ⟨q, table, hrun, ?_, h.updates_of_siblings hupdates⟩
        simpa [NamespaceForest.endOf?, NamespaceForest.numberAt?, hid] using hend

/-- Namespaces are added in an arena as in the tree that it stores. -/
theorem Stores.exists_ensureNamespaces {t : DeclarationTree α} (h : a.Stores t) (ht : t.IsNumbered)
    (ns : List Namespace) :
    ∃ q a', a.ensureNamespaces 0 ns = some (q, a') ∧
      (t.ensureNamespaces ns).numberAt? ns = some q ∧ a'.Stores (t.ensureNamespaces ns) := by
  have hroot := h.getElem?_zero
  have hholds : a.HoldsNamespaces 0 [] t.namespaces :=
    ⟨⟨_, hroot, rfl⟩, fun x hx => h.namespaces.getElem?_eq x (List.mem_cons_of_mem _ hx),
      ht.namespaces_nodup⟩
  obtain ⟨q, table, hrun, hend, hupdates⟩ :=
    DeclarationArena.exists_ensureNamespaces t.namespaces ns hholds fun _ _ => rfl
  obtain ⟨k, hnext, hnumbers⟩ := t.exists_namespaceNumbers_ensureNamespaces ns
  rw [h.length_namespaces] at hend hupdates
  have hzero : (0 : ℕ) ∉ t.namespaces.numbers := (List.nodup_cons.1 ht.namespaces_nodup).1
  refine ⟨q, _, hrun, hend, h.pass_eq, h.refused_eq, hupdates.length_eq, h.length_types, ⟨?_, ?_⟩, ?_⟩
  · refine List.forall_mem_cons.2 ⟨?_, hupdates.getElem?_eq⟩
    rw [hupdates.getElem?_of_notMem 0 _ hzero, getElem?_setChildrenOf_self hroot]
    · rfl
    · rw [length_setChildrenOf]
      exact (List.getElem?_eq_some_iff.1 hroot).1
  · rw [DeclarationTree.map_fst_namespaceCells]
    have hupdated : Updates (a.setChildrenOf (t.ensureNamespaces ns).namespaces.childMap 0).namespaces
        table t.namespaces.numbers (t.ensureNamespaces ns).namespaces.cells
        (t.nextNamespace + k) := by
      rw [← hnext]
      exact hupdates
    refine hupdated.isBlank_of_notMem ?_ hnumbers (List.subset_cons_self _ _) ?_
    · rw [length_setChildrenOf, h.length_namespaces]
    · intro i cell hget hi
      have hne : 0 ≠ i := fun e => hi (e ▸ List.mem_cons_self)
      rw [getElem?_setChildrenOf_of_ne hne] at hget
      exact h.namespaces.isBlank_of_notMem i cell hget (t.map_fst_namespaceCells ▸ hi)
  · have hcells : (t.ensureNamespaces ns).typeCells = t.typeCells := by
      rw [DeclarationTree.typeCells, DeclarationTree.typeCells, DeclarationTree.ensureNamespaces,
        NamespaceForest.typeCells_ensure]
    rw [hcells]
    exact h.types

end DeclarationArena
end NativeBindings
