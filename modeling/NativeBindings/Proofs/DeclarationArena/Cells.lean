import NativeBindings.DeclarationArena
import NativeBindings.Proofs.DeclarationTree.Insertion

/-!
# Cells of a declaration tree

The nodes of a declaration tree as the cells of an arena, each with its number. A node is a child in
one place of its tree, so it is entered into one cell, and a change to one node is a change to one
cell.

## Main definitions

- `DeclarationTree.namespaceCells`, `DeclarationTree.typeCells` — the cells of a tree

## Main statements

- `DeclarationTree.numbers_perm`, `DeclarationTree.typeNumbers_perm` — every node is entered once
- `DeclarationTree.exists_namespaceCells_of_numberAt?` — other types change the cell of a namespace
- `DeclarationTree.exists_typeCells_of_hasNamespaces` — and the cells of types below it
- `TypeForest.exists_cells_of_numberAt?` — a placed member changes the cell of its type
-/

namespace NativeBindings

variable {α : Type}

/-! ## Types -/

namespace TypeForest

/-- The outermost types with their numbers, by identity. -/
def childMap : TypeForest α → List (Symbol × ℕ)
  | none => []
  | node number type _ _ siblings => (type.id, number) :: siblings.childMap

/-- The cells of all types with their numbers. -/
def cells : TypeForest α → List (ℕ × TypeCell α)
  | none => []
  | node number type members nested siblings =>
    (number, ⟨type, nested.childMap, members⟩) :: (nested.cells ++ siblings.cells)

/-- The number of the type at the end of a path. -/
def numberAt? : List EnclosingType → TypeForest α → Option ℕ
  | [], _ => Option.none
  | _ :: _, none => Option.none
  | t :: ts, node number type _ nested siblings =>
    if type.id = t.id then
      if ts.isEmpty then some number else nested.numberAt? ts
    else siblings.numberAt? (t :: ts)

theorem map_fst_cells (f : TypeForest α) : f.cells.map (·.1) = f.numbers := by
  induction f with
  | none => rfl
  | node number type members nested siblings ihNested ihSiblings =>
    rw [cells, List.map_cons, List.map_append, ihNested, ihSiblings, numbers]

theorem mem_numbers_of_mem_cells {f : TypeForest α} {x : ℕ × TypeCell α} (h : x ∈ f.cells) :
    x.1 ∈ f.numbers :=
  f.map_fst_cells ▸ List.mem_map_of_mem h

theorem isEmpty_childMap (f : TypeForest α) : f.childMap.isEmpty = f.isNone := by
  cases f <;> rfl

theorem map_snd_childMap (f : TypeForest α) : f.childMap.map (·.2) = f.topNumbers := by
  induction f with
  | none => rfl
  | node number type members nested siblings _ ihSiblings =>
    rw [childMap, List.map_cons, ihSiblings, topNumbers]

theorem topNumbers_sublist (f : TypeForest α) : f.topNumbers.Sublist f.numbers := by
  induction f with
  | none => exact List.Sublist.refl _
  | node number type members nested siblings _ ihSiblings =>
    exact (ihSiblings.trans (List.sublist_append_right _ _)).cons_cons number

/-- The entries of all types for the types nested in them. -/
def nestedNumbers (f : TypeForest α) : List ℕ := f.cells.flatMap fun x => x.2.nested.map (·.2)

/-- A type is an outermost one or entered into one other type. -/
theorem numbers_perm (f : TypeForest α) : f.numbers.Perm (f.topNumbers ++ f.nestedNumbers) := by
  induction f with
  | none => exact .nil
  | node number type members nested siblings ihNested ihSiblings =>
    simp only [nestedNumbers, List.perm_iff_count] at ihNested ihSiblings
    rw [List.perm_iff_count]
    intro i
    simp only [numbers, topNumbers, nestedNumbers, cells, List.flatMap_cons, List.flatMap_append,
      map_snd_childMap, List.count_cons, List.count_append, ihNested, ihSiblings]
    omega

theorem entries_eq_flatMap (f : TypeForest α) : f.entries = f.cells.flatMap (·.2.members) := by
  induction f with
  | none => rfl
  | node number type members nested siblings ihNested ihSiblings =>
    rw [entries, cells, List.flatMap_cons, List.flatMap_append, ihNested, ihSiblings,
      List.append_assoc]

@[simp] theorem childMap_place (member : Symbol) (value : α) (ts : List EnclosingType)
    (f : TypeForest α) : (f.place member value ts).childMap = f.childMap := by
  induction f generalizing ts with
  | none => cases ts <;> rfl
  | node number type members nested siblings _ ihSiblings =>
    cases ts with
    | nil => rfl
    | cons t ts =>
      simp only [place]
      split
      · split <;> rfl
      · rw [childMap, ihSiblings, childMap]

/-- A placed member is one more member of its type, and no other cell changes. -/
theorem exists_cells_of_numberAt? {ts : List EnclosingType} {f : TypeForest α} {q : ℕ}
    (h : f.numberAt? ts = some q) :
    ∃ before cell after, f.cells = before ++ (q, cell) :: after ∧
      f.membersAt? ts = some cell.members ∧
      ∀ member value, (f.place member value ts).cells =
        before ++ (q, { cell with members := cell.members ++ [(member, value)] }) :: after := by
  induction f generalizing ts with
  | none => cases ts <;> cases h
  | node number type members nested siblings ihNested ihSiblings =>
    cases ts with
    | nil => cases h
    | cons t ts =>
      simp only [numberAt?] at h
      by_cases hid : type.id = t.id
      · rw [if_pos hid] at h
        by_cases hts : ts.isEmpty
        · rw [if_pos hts, Option.some.injEq] at h
          subst h
          refine ⟨[], ⟨type, nested.childMap, members⟩, nested.cells ++ siblings.cells, rfl, ?_, ?_⟩
          · rw [membersAt?, if_pos hid, if_pos hts]
          · intro member value
            rw [place, if_pos hid, if_pos hts]
            rfl
        · rw [if_neg hts] at h
          obtain ⟨before, cell, after, hcells, hmembers, hplace⟩ := ihNested h
          refine ⟨(number, ⟨type, nested.childMap, members⟩) :: before, cell,
            after ++ siblings.cells, ?_, ?_, ?_⟩
          · rw [cells, hcells, List.append_assoc]
            rfl
          · rw [membersAt?, if_pos hid, if_neg hts, hmembers]
          · intro member value
            rw [place, if_pos hid, if_neg hts, cells, hplace, childMap_place, List.append_assoc]
            rfl
      · rw [if_neg hid] at h
        obtain ⟨before, cell, after, hcells, hmembers, hplace⟩ := ihSiblings h
        refine ⟨(number, ⟨type, nested.childMap, members⟩) :: (nested.cells ++ before), cell, after,
          ?_, ?_, ?_⟩
        · rw [cells, hcells, ← List.append_assoc]
          rfl
        · rw [membersAt?, if_neg hid, hmembers]
        · intro member value
          rw [place, if_neg hid, cells, hplace, ← List.append_assoc]
          rfl

end TypeForest

/-! ## Namespaces -/

namespace NamespaceForest

/-- The outermost namespaces with their numbers, by identity. -/
def childMap : NamespaceForest α → List (Symbol × ℕ)
  | none => []
  | node number decl _ _ siblings => (decl.id, number) :: siblings.childMap

/-- The cells of all namespaces with their numbers. -/
def cells : NamespaceForest α → List (ℕ × NamespaceCell)
  | none => []
  | node number decl types children siblings =>
    (number, ⟨decl.name, children.childMap, types.childMap⟩) :: (children.cells ++ siblings.cells)

/-- The cells of the types in all namespaces with their numbers. -/
def typeCells : NamespaceForest α → List (ℕ × TypeCell α)
  | none => []
  | node _ _ types children siblings => types.cells ++ children.typeCells ++ siblings.typeCells

/-- The number of the namespace at the end of a path. -/
def numberAt? : List Namespace → NamespaceForest α → Option ℕ
  | [], _ => Option.none
  | _ :: _, none => Option.none
  | n :: ns, node number decl _ children siblings =>
    if decl.id = n.id then
      if ns.isEmpty then some number else children.numberAt? ns
    else siblings.numberAt? (n :: ns)

/-- The numbers of the outermost namespaces. -/
def topNumbers (f : NamespaceForest α) : List ℕ := f.childMap.map (·.2)

theorem map_fst_cells (f : NamespaceForest α) : f.cells.map (·.1) = f.numbers := by
  induction f with
  | none => rfl
  | node number decl types children siblings ihChildren ihSiblings =>
    rw [cells, List.map_cons, List.map_append, ihChildren, ihSiblings, numbers]

theorem mem_numbers_of_mem_cells {f : NamespaceForest α} {x : ℕ × NamespaceCell}
    (h : x ∈ f.cells) : x.1 ∈ f.numbers :=
  f.map_fst_cells ▸ List.mem_map_of_mem h

theorem isEmpty_childMap (f : NamespaceForest α) : f.childMap.isEmpty = f.isNone := by
  cases f <;> rfl

theorem map_fst_typeCells (f : NamespaceForest α) : f.typeCells.map (·.1) = f.typeNumbers := by
  induction f with
  | none => rfl
  | node number decl types children siblings ihChildren ihSiblings =>
    rw [typeCells, List.map_append, List.map_append, TypeForest.map_fst_cells, ihChildren,
      ihSiblings, typeNumbers]

/-- The entries of all namespaces for their child namespaces. -/
def childNumbers (f : NamespaceForest α) : List ℕ := f.cells.flatMap fun x => x.2.children.map (·.2)

/-- The entries of all namespaces for their types. -/
def outerNumbers (f : NamespaceForest α) : List ℕ := f.cells.flatMap fun x => x.2.types.map (·.2)

/-- The entries of the types in all namespaces for the types nested in them. -/
def nestedNumbers (f : NamespaceForest α) : List ℕ :=
  f.typeCells.flatMap fun x => x.2.nested.map (·.2)

/-- A namespace is an outermost one or entered into one other namespace. -/
theorem numbers_perm (f : NamespaceForest α) :
    f.numbers.Perm (f.topNumbers ++ f.childNumbers) := by
  induction f with
  | none => exact .nil
  | node number decl types children siblings ihChildren ihSiblings =>
    simp only [topNumbers, childNumbers, List.perm_iff_count] at ihChildren ihSiblings
    rw [List.perm_iff_count]
    intro i
    simp only [numbers, topNumbers, childMap, childNumbers, cells, List.map_cons,
      List.flatMap_cons, List.flatMap_append, List.count_cons, List.count_append, ihChildren,
      ihSiblings]
    omega

/-- A type is entered into one namespace or into one other type. -/
theorem typeNumbers_perm (f : NamespaceForest α) :
    f.typeNumbers.Perm (f.outerNumbers ++ f.nestedNumbers) := by
  induction f with
  | none => exact .nil
  | node number decl types children siblings ihChildren ihSiblings =>
    have htypes := types.numbers_perm
    simp only [outerNumbers, nestedNumbers, TypeForest.nestedNumbers, List.perm_iff_count]
      at ihChildren ihSiblings htypes
    rw [List.perm_iff_count]
    intro i
    simp only [typeNumbers, outerNumbers, nestedNumbers, cells, typeCells, List.flatMap_cons,
      List.flatMap_append, TypeForest.map_snd_childMap, List.count_append, htypes, ihChildren,
      ihSiblings]
    omega

theorem entries_eq_flatMap (f : NamespaceForest α) :
    f.entries = f.typeCells.flatMap (·.2.members) := by
  induction f with
  | none => rfl
  | node number decl types children siblings ihChildren ihSiblings =>
    rw [entries, typeCells, List.flatMap_append, List.flatMap_append,
      TypeForest.entries_eq_flatMap, ihChildren, ihSiblings]

@[simp] theorem childMap_setTypesAt (new : TypeForest α) (ns : List Namespace)
    (f : NamespaceForest α) : (f.setTypesAt new ns).childMap = f.childMap := by
  induction f generalizing ns with
  | none => cases ns <;> rfl
  | node number decl types children siblings _ ihSiblings =>
    cases ns with
    | nil => rfl
    | cons n ns =>
      simp only [setTypesAt]
      split
      · split <;> rfl
      · rw [childMap, ihSiblings, childMap]

/-- Other types in a namespace are entered into its cell, and into no other. -/
theorem exists_cells_of_numberAt? {ns : List Namespace} {f : NamespaceForest α} {q : ℕ}
    (h : f.numberAt? ns = some q) :
    ∃ before cell after, f.cells = before ++ (q, cell) :: after ∧
      cell.types = (f.typesAt ns).childMap ∧
      ∀ new, (f.setTypesAt new ns).cells =
        before ++ (q, { cell with types := new.childMap }) :: after := by
  induction f generalizing ns with
  | none => cases ns <;> cases h
  | node number decl types children siblings ihChildren ihSiblings =>
    cases ns with
    | nil => cases h
    | cons n ns =>
      simp only [numberAt?] at h
      by_cases hid : decl.id = n.id
      · rw [if_pos hid] at h
        by_cases hns : ns.isEmpty
        · rw [if_pos hns, Option.some.injEq] at h
          subst h
          refine ⟨[], ⟨decl.name, children.childMap, types.childMap⟩,
            children.cells ++ siblings.cells, rfl, ?_, ?_⟩
          · rw [typesAt, if_pos hid, if_pos hns]
          · intro new
            rw [setTypesAt, if_pos hid, if_pos hns]
            rfl
        · rw [if_neg hns] at h
          obtain ⟨before, cell, after, hcells, htypes, hset⟩ := ihChildren h
          refine ⟨(number, ⟨decl.name, children.childMap, types.childMap⟩) :: before, cell,
            after ++ siblings.cells, ?_, ?_, ?_⟩
          · rw [cells, hcells, List.append_assoc]
            rfl
          · rw [typesAt, if_pos hid, if_neg hns, htypes]
          · intro new
            rw [setTypesAt, if_pos hid, if_neg hns, cells, hset, childMap_setTypesAt,
              List.append_assoc]
            rfl
      · rw [if_neg hid] at h
        obtain ⟨before, cell, after, hcells, htypes, hset⟩ := ihSiblings h
        refine ⟨(number, ⟨decl.name, children.childMap, types.childMap⟩) ::
          (children.cells ++ before), cell, after, ?_, ?_, ?_⟩
        · rw [cells, hcells, ← List.append_assoc]
          rfl
        · rw [typesAt, if_neg hid, htypes]
        · intro new
          rw [setTypesAt, if_neg hid, cells, hset, ← List.append_assoc]
          rfl

/-- The cells of the types in a namespace stand together, and are all that changes when its types
do. -/
theorem exists_typeCells_of_hasPath {ns : List Namespace} {f : NamespaceForest α}
    (h : f.HasPath ns) :
    ∃ before after, f.typeCells = before ++ (f.typesAt ns).cells ++ after ∧
      ∀ new, (f.setTypesAt new ns).typeCells = before ++ new.cells ++ after := by
  induction f generalizing ns with
  | none => cases ns <;> cases h
  | node number decl types children siblings ihChildren ihSiblings =>
    cases ns with
    | nil => cases h
    | cons n ns =>
      simp only [HasPath] at h
      by_cases hid : decl.id = n.id
      · by_cases hns : ns = []
        · refine ⟨[], children.typeCells ++ siblings.typeCells, ?_, fun new => ?_⟩
          · simp [typeCells, typesAt, hid, hns]
          · simp [setTypesAt, hid, hns, typeCells]
        · simp only [hid, if_true, hns, false_or] at h
          obtain ⟨before, after, hcells, hset⟩ := ihChildren h
          refine ⟨types.cells ++ before, after ++ siblings.typeCells, ?_, fun new => ?_⟩
          · simp [typeCells, typesAt, hid, hns, hcells]
          · simp [setTypesAt, hid, hns, typeCells, hset]
      · simp only [hid, if_false] at h
        obtain ⟨before, after, hcells, hset⟩ := ihSiblings h
        refine ⟨types.cells ++ children.typeCells ++ before, after, ?_, fun new => ?_⟩
        · simp [typeCells, typesAt, hid, hcells]
        · simp [setTypesAt, hid, typeCells, hset]

end NamespaceForest

/-! ## Trees -/

namespace DeclarationTree

/-- The cells of the namespaces with their numbers; the global one is number zero. -/
def namespaceCells (t : DeclarationTree α) : List (ℕ × NamespaceCell) :=
  (0, ⟨"", t.namespaces.childMap, t.types.childMap⟩) :: t.namespaces.cells

/-- The cells of the types with their numbers. -/
def typeCells (t : DeclarationTree α) : List (ℕ × TypeCell α) :=
  t.types.cells ++ t.namespaces.typeCells

/-- The numbers of the namespaces. -/
def namespaceNumbers (t : DeclarationTree α) : List ℕ := 0 :: t.namespaces.numbers

/-- The numbers of the types. -/
def typeNumbers (t : DeclarationTree α) : List ℕ := t.types.numbers ++ t.namespaces.typeNumbers

/-- The number of the namespace at the end of a path. -/
def numberAt? (t : DeclarationTree α) (ns : List Namespace) : Option ℕ :=
  if ns.isEmpty then some 0 else t.namespaces.numberAt? ns

theorem map_fst_namespaceCells (t : DeclarationTree α) :
    t.namespaceCells.map (·.1) = t.namespaceNumbers := by
  rw [namespaceCells, List.map_cons, NamespaceForest.map_fst_cells, namespaceNumbers]

theorem map_fst_typeCells (t : DeclarationTree α) : t.typeCells.map (·.1) = t.typeNumbers := by
  rw [typeCells, List.map_append, TypeForest.map_fst_cells, NamespaceForest.map_fst_typeCells,
    typeNumbers]

/-- Every namespace but the global one is entered into one namespace. -/
theorem numbers_perm (t : DeclarationTree α) :
    t.namespaces.numbers.Perm (t.namespaceCells.flatMap fun x => x.2.children.map (·.2)) :=
  t.namespaces.numbers_perm

/-- Every type is entered into one namespace or into one other type. -/
theorem typeNumbers_perm (t : DeclarationTree α) :
    t.typeNumbers.Perm ((t.namespaceCells.flatMap fun x => x.2.types.map (·.2)) ++
      t.typeCells.flatMap fun x => x.2.nested.map (·.2)) := by
  have htypes := t.types.numbers_perm
  have hnamespaces := t.namespaces.typeNumbers_perm
  simp only [NamespaceForest.outerNumbers, NamespaceForest.nestedNumbers, TypeForest.nestedNumbers,
    List.perm_iff_count] at htypes hnamespaces
  rw [List.perm_iff_count]
  intro i
  simp only [typeNumbers, namespaceCells, typeCells, List.flatMap_cons, List.flatMap_append,
    TypeForest.map_snd_childMap, List.count_append, htypes, hnamespaces]
  omega

theorem entries_eq_flatMap (t : DeclarationTree α) :
    t.entries = t.typeCells.flatMap (·.2.members) := by
  rw [entries, typeCells, List.flatMap_append, TypeForest.entries_eq_flatMap,
    NamespaceForest.entries_eq_flatMap]

/-- Other types in a namespace are entered into its cell, and into no other. -/
theorem exists_namespaceCells_of_numberAt? {t : DeclarationTree α} {ns : List Namespace} {q : ℕ}
    (h : t.numberAt? ns = some q) :
    ∃ before cell after, t.namespaceCells = before ++ (q, cell) :: after ∧
      cell.types = (t.typesAt ns).childMap ∧
      ∀ new, (t.setTypesAt ns new).namespaceCells =
        before ++ (q, { cell with types := new.childMap }) :: after := by
  unfold numberAt? at h
  unfold typesAt setTypesAt
  by_cases hns : ns.isEmpty
  · rw [if_pos hns, Option.some.injEq] at h
    subst h
    refine ⟨[], ⟨"", t.namespaces.childMap, t.types.childMap⟩, t.namespaces.cells, rfl, ?_, ?_⟩
    · rw [if_pos hns]
    · intro new
      rw [if_pos hns]
      rfl
  · rw [if_neg hns] at h
    obtain ⟨before, cell, after, hcells, htypes, hset⟩ :=
      NamespaceForest.exists_cells_of_numberAt? h
    refine ⟨(0, ⟨"", t.namespaces.childMap, t.types.childMap⟩) :: before, cell, after, ?_, ?_, ?_⟩
    · rw [namespaceCells, hcells]
      rfl
    · rw [if_neg hns, htypes]
    · intro new
      rw [if_neg hns, namespaceCells, hset, NamespaceForest.childMap_setTypesAt]
      rfl

/-- The cells of the types in a namespace stand together, and are all that changes when its types
do. -/
theorem exists_typeCells_of_hasNamespaces {t : DeclarationTree α} {ns : List Namespace}
    (h : t.HasNamespaces ns) :
    ∃ before after, t.typeCells = before ++ (t.typesAt ns).cells ++ after ∧
      ∀ new, (t.setTypesAt ns new).typeCells = before ++ new.cells ++ after := by
  by_cases hns : ns = []
  · refine ⟨[], t.namespaces.typeCells, ?_, fun new => ?_⟩
    · simp [typeCells, typesAt, hns]
    · simp [typeCells, setTypesAt, hns]
  · obtain ⟨before, after, hcells, hset⟩ :=
      NamespaceForest.exists_typeCells_of_hasPath (h.resolve_left hns)
    refine ⟨t.types.cells ++ before, after, ?_, fun new => ?_⟩
    · simp [typeCells, typesAt, hns, hcells]
    · simp [typeCells, setTypesAt, hns, hset]

end DeclarationTree
end NativeBindings
