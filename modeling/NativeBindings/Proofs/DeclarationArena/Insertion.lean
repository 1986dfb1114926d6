import NativeBindings.Proofs.DeclarationArena.TypeGrowth

/-!
# Insertion into a declaration arena

An insertion into an arena ends as the insertion into the tree that the arena stores, with the same
calls to `report` and `accept`, and the arena stores the tree that comes of it.

## Main statements

- `DeclarationArena.Stores.exists_ensure` — the node of a container is found or added as in the tree
- `DeclarationArena.Stores.exists_insert` — members are inserted as into the tree
-/

namespace NativeBindings

variable {α σ : Type}

theorem NamespaceForest.exists_numberAt?_of_hasPath {f : NamespaceForest α} {ns : List Namespace}
    (h : f.HasPath ns) : ∃ q, f.numberAt? ns = some q := by
  induction f generalizing ns with
  | none => cases ns <;> cases h
  | node number decl types children siblings ihChildren ihSiblings =>
    cases ns with
    | nil => cases h
    | cons n ns =>
      simp only [HasPath] at h
      simp only [numberAt?]
      split
      · rename_i hid
        rw [if_pos hid] at h
        cases ns with
        | nil => exact ⟨number, rfl⟩
        | cons m ns => exact ihChildren (h.resolve_left (List.cons_ne_nil m ns))
      · rename_i hid
        rw [if_neg hid] at h
        exact ihSiblings h

namespace DeclarationTree

variable {t : DeclarationTree α} {ns : List Namespace}

theorem exists_numberAt?_of_hasNamespaces (h : t.HasNamespaces ns) :
    ∃ q, t.numberAt? ns = some q := by
  unfold numberAt?
  by_cases hns : ns = []
  · exact ⟨0, by simp [hns]⟩
  · obtain ⟨q, hq⟩ := NamespaceForest.exists_numberAt?_of_hasPath (h.resolve_left hns)
    exact ⟨q, by simpa [hns] using hq⟩

@[simp] theorem pass_setTypesAt (t : DeclarationTree α) (ns : List Namespace) (new : TypeForest α) :
    (t.setTypesAt ns new).pass = t.pass := by
  unfold setTypesAt
  split <;> rfl

@[simp] theorem refused_setTypesAt (t : DeclarationTree α) (ns : List Namespace)
    (new : TypeForest α) : (t.setTypesAt ns new).refused = t.refused := by
  unfold setTypesAt
  split <;> rfl

end DeclarationTree

namespace DeclarationArena
namespace Stores

variable {a : DeclarationArena α} {t : DeclarationTree α} {ns : List Namespace} {q : ℕ}

theorem typesOf?_eq (h : a.Stores t) (hq : t.numberAt? ns = some q) :
    a.typesOf? (.ofNamespace q) = some (t.typesAt ns).childMap := by
  obtain ⟨before, cell, after, hcells, htypes, -⟩ :=
    DeclarationTree.exists_namespaceCells_of_numberAt? hq
  have hcell := h.namespaces.getElem?_eq (q, cell) (by simp [hcells])
  rw [typesOf?, hcell, Option.map_some, htypes]

theorem holdsTypes (h : a.Stores t) (ht : t.IsNumbered) (hns : t.HasNamespaces ns)
    (hq : t.numberAt? ns = some q) : a.HoldsTypes (.ofNamespace q) [] (t.typesAt ns) := by
  obtain ⟨before, after, hcells, -⟩ := DeclarationTree.exists_typeCells_of_hasNamespaces hns
  refine ⟨h.typesOf?_eq hq, fun x hx => h.types.getElem?_eq x ?_, ?_, fun i _ => ?_⟩
  · rw [hcells]
    exact List.mem_append_left _ (List.mem_append_right _ hx)
  · have hnodup := ht.types_nodup
    rw [← t.map_fst_typeCells, hcells, List.map_append, List.map_append,
      TypeForest.map_fst_cells] at hnodup
    exact hnodup.of_append_left.of_append_right
  · exact ArenaNode.noConfusion

/-- The types of a namespace are replaced, and new ones stand at the end of the table. -/
theorem setTypesAt (h : a.Stores t) (ht : t.IsNumbered) (hns : t.HasNamespaces ns)
    (hq : t.numberAt? ns = some q) {new : TypeForest α} {table : List (TypeCell α)} {k : ℕ}
    (hupdates : Updates a.types table (t.typesAt ns).numbers new.cells (t.nextType + k))
    (hnumbers : new.numbers.Perm ((t.typesAt ns).numbers ++ List.range' t.nextType k)) :
    Stores { a.setTypesOf new.childMap (.ofNamespace q) with types := table }
      { t.setTypesAt ns new with nextType := t.nextType + k } where
  pass_eq := h.pass_eq.trans (t.pass_setTypesAt ns new).symm
  refused_eq := h.refused_eq.trans (t.refused_setTypesAt ns new).symm
  length_namespaces := by
    rw [DeclarationTree.nextNamespace_setTypesAt, ← h.length_namespaces]
    exact List.length_modify _ _ _
  length_types := hupdates.length_eq
  namespaces := by
    obtain ⟨before, cell, after, hcells, -, hset⟩ :=
      DeclarationTree.exists_namespaceCells_of_numberAt? hq
    have hnodup := ht.namespaces_nodup
    rw [← t.map_fst_namespaceCells, hcells] at hnodup
    have htable := (hcells ▸ h.namespaces).modify hnodup ({ · with types := new.childMap })
    rw [← hset new] at htable
    exact htable
  types := by
    obtain ⟨before, after, hcells, hset⟩ := DeclarationTree.exists_typeCells_of_hasNamespaces hns
    have hnumbers' := DeclarationTree.typeNumbers_setTypesAt_perm hns hnumbers
    have hnodup := ht.types_nodup
    rw [← t.map_fst_typeCells, hcells, List.map_append, List.map_append,
      TypeForest.map_fst_cells, List.append_assoc, List.nodup_append'] at hnodup
    obtain ⟨-, hrest, hbefore⟩ := hnodup
    have hafter := List.disjoint_of_nodup_append hrest
    -- the types of other namespaces stay where they are
    have hother : ∀ x ∈ before ++ after, table[x.1]? = some x.2 := by
      intro x hx
      have hmem : x ∈ t.typeCells := by
        rw [hcells]
        exact ((List.sublist_append_left before _).append (List.Sublist.refl after)).subset hx
      refine hupdates.getElem?_eq_of_notMem (h.types.getElem?_eq x hmem) fun hin => ?_
      rcases List.mem_append.1 hx with hx | hx
      · exact hbefore (List.mem_map_of_mem hx) (List.mem_append_left _ hin)
      · exact hafter hin (List.mem_map_of_mem hx)
    refine ⟨?_, ?_⟩
    · change ∀ x ∈ (t.setTypesAt ns new).typeCells, _
      rw [hset new, List.forall_mem_append, List.forall_mem_append]
      rw [List.forall_mem_append] at hother
      exact ⟨⟨hother.1, hupdates.getElem?_eq⟩, hother.2⟩
    · rw [DeclarationTree.map_fst_typeCells]
      refine hupdates.isBlank_of_notMem h.length_types hnumbers' (fun i hi => ?_) ?_
      · exact DeclarationTree.mem_typeNumbers_of_mem_typesAt hi
      · rw [← t.map_fst_typeCells]
        exact h.types.isBlank_of_notMem

/-- The node of a container is found or added in an arena as in the tree that it stores. -/
theorem exists_ensure (h : a.Stores t) (ht : t.IsNumbered) (c : Container) :
    ∃ q r a', a.ensure c = some (r, a') ∧ a'.Stores (t.ensure c) ∧
      (t.typesAt c.namespaces).outcome? (.ofNamespace q) 0 t.nextType c.types = some r := by
  obtain ⟨q, b, hrun, hq, hb⟩ := h.exists_ensureNamespaces ht c.namespaces
  have hns := DeclarationTree.hasNamespaces_ensureNamespaces t c.namespaces
  have hgrown := ht.ensureNamespaces c.namespaces
  obtain ⟨r, table, hrun', houtcome, hupdates⟩ :=
    exists_ensureTypes _ 0 c.types (hb.holdsTypes hgrown hns hq) fun _ _ => rfl
  rw [hb.length_types] at houtcome hupdates hrun'
  obtain ⟨k, hnext, hnumbers⟩ :=
    ((t.ensureNamespaces c.namespaces).typesAt c.namespaces).exists_numbers_ensure
      (t.ensureNamespaces c.namespaces).nextType c.types
  rw [hnext] at hupdates
  have hstores := hb.setTypesAt hgrown hns hq hupdates hnumbers
  rw [← hnext] at hstores
  refine ⟨q, r, _, ?_, hstores, ?_⟩
  · rw [DeclarationArena.ensure, hrun]
    exact hrun'
  · rw [DeclarationTree.typesAt_ensureNamespaces] at houtcome
    exact houtcome

/-- A member is added to the type at the end of a path. -/
theorem exists_place (h : a.Stores t) (ht : t.IsNumbered) {c : Container} {p : ℕ}
    (hp : (t.typesAt c.namespaces).numberAt? c.types = some p) :
    ∃ cell, a.types[p]? = some cell ∧ t.membersAt? c = some cell.members ∧
      ∀ member value, (a.addMember p member value).Stores (t.place c member value) := by
  obtain ⟨before, cell, after, hcells, hmembers, hplace⟩ := TypeForest.exists_cells_of_numberAt? hp
  have hne : t.typesAt c.namespaces ≠ .none := by
    intro hnone
    rw [hnone] at hcells
    cases before <;> cases hcells
  have hns := DeclarationTree.hasNamespaces_of_typesAt_ne hne
  obtain ⟨q, hq⟩ := DeclarationTree.exists_numberAt?_of_hasNamespaces hns
  have hholds := h.holdsTypes ht hns hq
  have hin : (p, cell) ∈ (t.typesAt c.namespaces).cells := by
    rw [hcells]
    exact List.mem_append_right _ List.mem_cons_self
  refine ⟨cell, hholds.getElem?_eq _ hin, hmembers, fun member value => ?_⟩
  let added := (t.typesAt c.namespaces).place member value c.types
  let enter := fun cell : TypeCell α => { cell with members := cell.members ++ [(member, value)] }
  have hupdates : Updates a.types (a.types.modify p enter) (t.typesAt c.namespaces).numbers
      added.cells (t.nextType + 0) := by
    refine ⟨(List.length_modify _ _ _).trans h.length_types, ?_, fun i _ hi => ?_⟩
    · rw [hplace]
      refine getElem?_modify_of_mem (hcells ▸ hholds.getElem?_eq) ?_ enter
      rw [← hcells, TypeForest.map_fst_cells]
      exact hholds.nodup
    · refine List.getElem?_modify_ne _ _ ?_
      rintro rfl
      exact hi (TypeForest.mem_numbers_of_mem_cells hin)
  have hnumbers : added.numbers.Perm
      ((t.typesAt c.namespaces).numbers ++ List.range' t.nextType 0) := by
    rw [TypeForest.numbers_place, List.range'_zero, List.append_nil]
  have hstores := h.setTypesAt ht hns hq hupdates hnumbers
  -- the identities of the outermost types and the next number stay
  rw [TypeForest.childMap_place, setTypesOf_self (h.typesOf?_eq hq), Nat.add_zero,
    ← DeclarationTree.nextType_setTypesAt t c.namespaces added] at hstores
  exact hstores

/-- A member is inserted into an arena as into the tree that it stores. -/
theorem exists_insert (h : a.Stores t) (ht : t.IsNumbered) (c : Container) (member : Symbol)
    (report : Diagnostic → σ → σ) (accept : σ → Option α × σ) (s : σ) :
    ∃ a', a.insert c member report accept s =
        some ((t.insert c member report accept s).1, a', (t.insert c member report accept s).2.2) ∧
      a'.Stores (t.insert c member report accept s).2.1 := by
  obtain ⟨q, r, a', hrun, hstores, houtcome⟩ := h.exists_ensure ht c
  have htypes : ((t.typesAt c.namespaces).ensure t.nextType c.types).1 =
      (t.ensure c).typesAt c.namespaces := by
    rw [DeclarationTree.typesAt_ensure, if_pos rfl]
  rw [TypeForest.outcome?, htypes] at houtcome
  unfold DeclarationArena.insert DeclarationTree.insert
  simp only [hrun, Option.bind_eq_bind, Option.bind_some]
  cases hobstacle : t.obstacle? c with
  | some o =>
    rw [DeclarationTree.obstacle?] at hobstacle
    rw [hobstacle] at houtcome
    cases houtcome
    exact ⟨a', by rw [hstores.pass_eq, DeclarationTree.pass_ensure]; rfl, hstores⟩
  | none =>
    rw [DeclarationTree.obstacle?] at hobstacle
    rw [hobstacle] at houtcome
    obtain ⟨node, hend, rfl⟩ := Option.map_eq_some_iff.1 houtcome
    by_cases hne : c.types = []
    · obtain rfl : .ofNamespace q = node := by simpa [TypeForest.endOf?, hne] using hend
      refine ⟨a', ?_, ?_⟩
      · simp [hne]
      · simpa [hne] using hstores
    · rw [TypeForest.endOf?, if_neg (by simpa using hne)] at hend
      obtain ⟨p, hp, rfl⟩ := Option.map_eq_some_iff.1 hend
      obtain ⟨cell, hcell, hmembers, hplace⟩ := hstores.exists_place (ht.ensure c) hp
      rw [DeclarationTree.membersAt?] at hmembers
      have hrefused : a'.refused = t.refused := by
        rw [hstores.refused_eq, DeclarationTree.refused_ensure]
      simp only [hcell, hmembers, hrefused, Option.bind_some]
      split
      · exact ⟨a', rfl, hstores⟩
      · split
        · exact ⟨a', rfl, hstores⟩
        · rcases accept s with ⟨_ | value, s'⟩
          · exact ⟨_, rfl, hstores.refuse member⟩
          · exact ⟨_, rfl, hplace member value⟩

end Stores
end DeclarationArena
end NativeBindings
