import Mathlib.Data.List.Nodup
import NativeBindings.Proofs.DeclarationArena.Cells
import NativeBindings.Proofs.DeclarationTree.Nodes

/-!
# Numbering of a declaration tree

New nodes are numbered in the order in which they are added, and a node is added after the node that
it stands in. So no two nodes have the same number, and numbers grow on the way down. Pruning takes
numbers out, and nothing else changes them.

## Main definitions

- `DeclarationTree.IsNumbered` — the nodes of a tree have numbers of their own, which grow downwards

## Main statements

- `DeclarationTree.IsNumbered.insert`, `DeclarationTree.IsNumbered.prune` — trees stay numbered
- `DeclarationTree.exists_typeNumbers_ensure` — new types have the next numbers
-/

namespace NativeBindings

variable {α σ : Type}

/-! ## Types -/

namespace TypeForest

/-- Every type has a smaller number than all types below it. -/
def IsAscending : TypeForest α → Prop
  | none => True
  | node number _ _ nested siblings =>
    (∀ i ∈ nested.numbers, number < i) ∧ nested.IsAscending ∧ siblings.IsAscending

/-- A new path has the next numbers, in order. -/
theorem exists_numbers_grow (next : ℕ) (ts : List EnclosingType) :
    ∃ k, (grow next ts : TypeForest α × ℕ).2 = next + k ∧
      (grow next ts : TypeForest α × ℕ).1.numbers = List.range' next k := by
  induction ts generalizing next with
  | nil => exact ⟨0, rfl, rfl⟩
  | cons t ts ih =>
    simp only [grow]
    split
    · obtain ⟨k, hnext, hnumbers⟩ := ih (next + 1)
      refine ⟨k + 1, by rw [hnext]; omega, ?_⟩
      rw [numbers, hnumbers, numbers, List.append_nil, List.range'_succ]
    · exact ⟨0, rfl, rfl⟩

/-- The types that are added have the next numbers. -/
theorem exists_numbers_ensure (next : ℕ) (ts : List EnclosingType) (f : TypeForest α) :
    ∃ k, (f.ensure next ts).2 = next + k ∧
      (f.ensure next ts).1.numbers.Perm (f.numbers ++ List.range' next k) := by
  induction f generalizing next ts with
  | none =>
    cases ts with
    | nil => exact ⟨0, rfl, .nil⟩
    | cons t ts =>
      obtain ⟨k, hnext, hnumbers⟩ := exists_numbers_grow (α := α) next (t :: ts)
      exact ⟨k, hnext, .of_eq hnumbers⟩
  | node number type members nested siblings ihNested ihSiblings =>
    cases ts with
    | nil => exact ⟨0, rfl, by rw [List.range'_zero, List.append_nil]; exact .refl _⟩
    | cons t ts =>
      simp only [ensure]
      split
      · obtain ⟨k, hnext, hnumbers⟩ := ihNested next ts
        refine ⟨k, hnext, ?_⟩
        rw [List.perm_iff_count] at hnumbers ⊢
        intro i
        simp only [numbers, List.count_cons, List.count_append, hnumbers]
        omega
      · obtain ⟨k, hnext, hnumbers⟩ := ihSiblings next (t :: ts)
        refine ⟨k, hnext, ?_⟩
        rw [List.perm_iff_count] at hnumbers ⊢
        intro i
        simp only [numbers, List.count_cons, List.count_append, hnumbers]
        omega

theorem mem_numbers_ensure {next i : ℕ} {ts : List EnclosingType} {f : TypeForest α}
    (h : i ∈ (f.ensure next ts).1.numbers) : i ∈ f.numbers ∨ next ≤ i := by
  obtain ⟨k, -, hnumbers⟩ := f.exists_numbers_ensure next ts
  rw [hnumbers.mem_iff, List.mem_append, List.mem_range'_1] at h
  exact h.imp_right And.left

theorem isAscending_grow (next : ℕ) (ts : List EnclosingType) :
    (grow next ts : TypeForest α × ℕ).1.IsAscending := by
  induction ts generalizing next with
  | nil => trivial
  | cons t ts ih =>
    simp only [grow]
    split
    · refine ⟨fun i hi => ?_, ih (next + 1), trivial⟩
      obtain ⟨k, -, hnumbers⟩ := exists_numbers_grow (α := α) (next + 1) ts
      rw [hnumbers, List.mem_range'_1] at hi
      omega
    · trivial

namespace IsAscending

theorem ensure {f : TypeForest α} (h : f.IsAscending) {next : ℕ} (hlt : ∀ i ∈ f.numbers, i < next)
    (ts : List EnclosingType) : (f.ensure next ts).1.IsAscending := by
  induction f generalizing ts with
  | none =>
    cases ts with
    | nil => trivial
    | cons t ts => exact isAscending_grow next (t :: ts)
  | node number type members nested siblings ihNested ihSiblings =>
    cases ts with
    | nil => exact h
    | cons t ts =>
      obtain ⟨hbelow, hnested, hsiblings⟩ := h
      simp only [numbers, List.forall_mem_cons, List.forall_mem_append] at hlt
      simp only [TypeForest.ensure]
      split
      · refine ⟨fun i hi => ?_, ihNested hnested hlt.2.1 ts, hsiblings⟩
        rcases mem_numbers_ensure hi with hold | hnew
        · exact hbelow i hold
        · exact Nat.lt_of_lt_of_le hlt.1 hnew
      · exact ⟨hbelow, hnested, ihSiblings hsiblings hlt.2.2 (t :: ts)⟩

end IsAscending

@[simp] theorem numbers_place (member : Symbol) (value : α) (ts : List EnclosingType)
    (f : TypeForest α) : (f.place member value ts).numbers = f.numbers := by
  induction f generalizing ts with
  | none => cases ts <;> rfl
  | node number type members nested siblings ihNested ihSiblings =>
    cases ts with
    | nil => rfl
    | cons t ts =>
      simp only [place]
      split
      · split
        · rfl
        · rw [numbers, ihNested, numbers]
      · rw [numbers, ihSiblings, numbers]

theorem IsAscending.place {f : TypeForest α} (h : f.IsAscending) (member : Symbol) (value : α)
    (ts : List EnclosingType) : (f.place member value ts).IsAscending := by
  induction f generalizing ts with
  | none => cases ts <;> trivial
  | node number type members nested siblings ihNested ihSiblings =>
    cases ts with
    | nil => exact h
    | cons t ts =>
      obtain ⟨hbelow, hnested, hsiblings⟩ := h
      simp only [TypeForest.place]
      split
      · split
        · exact ⟨hbelow, hnested, hsiblings⟩
        · exact ⟨by rwa [numbers_place], ihNested hnested ts, hsiblings⟩
      · exact ⟨hbelow, hnested, ihSiblings hsiblings (t :: ts)⟩

theorem numbers_prune_sublist (f : TypeForest α) : f.prune.numbers.Sublist f.numbers := by
  induction f with
  | none => exact .refl _
  | node number type members nested siblings ihNested ihSiblings =>
    simp only [prune]
    split
    · exact (ihSiblings.trans (List.sublist_append_right _ _)).cons number
    · exact (ihNested.append ihSiblings).cons_cons number

theorem IsAscending.prune {f : TypeForest α} (h : f.IsAscending) : f.prune.IsAscending := by
  induction f with
  | none => trivial
  | node number type members nested siblings ihNested ihSiblings =>
    obtain ⟨hbelow, hnested, hsiblings⟩ := h
    simp only [TypeForest.prune]
    split
    · exact ihSiblings hsiblings
    · refine ⟨fun i hi => ?_, ihNested hnested, ihSiblings hsiblings⟩
      exact hbelow i (nested.numbers_prune_sublist.subset hi)

/-- A type has a smaller number than the types that are entered into it. -/
theorem IsAscending.lt {f : TypeForest α} (h : f.IsAscending) :
    ∀ x ∈ f.cells, ∀ c ∈ x.2.nested, x.1 < c.2 := by
  induction f with
  | none => exact List.forall_mem_nil _
  | node number type members nested siblings ihNested ihSiblings =>
    obtain ⟨hbelow, hnested, hsiblings⟩ := h
    simp only [cells, List.forall_mem_cons, List.forall_mem_append]
    refine ⟨fun c hc => hbelow c.2 (nested.topNumbers_sublist.subset ?_), ihNested hnested,
      ihSiblings hsiblings⟩
    rw [← map_snd_childMap]
    exact List.mem_map_of_mem hc

end TypeForest

/-! ## Namespaces -/

namespace NamespaceForest

/-- Every namespace has a smaller number than all namespaces below it, and every type than all types
below it. -/
def IsAscending : NamespaceForest α → Prop
  | none => True
  | node number _ types children siblings =>
    (∀ i ∈ children.numbers, number < i) ∧ types.IsAscending ∧ children.IsAscending ∧
      siblings.IsAscending

/-- A new path has the next numbers, in order. -/
theorem numbers_grow (next : ℕ) (ns : List Namespace) :
    (grow next ns : NamespaceForest α × ℕ).2 = next + ns.length ∧
      (grow next ns : NamespaceForest α × ℕ).1.numbers = List.range' next ns.length := by
  induction ns generalizing next with
  | nil => exact ⟨rfl, rfl⟩
  | cons n ns ih =>
    obtain ⟨hnext, hnumbers⟩ := ih (next + 1)
    refine ⟨by simp only [grow, hnext, List.length_cons]; omega, ?_⟩
    rw [grow, numbers, hnumbers, numbers, List.append_nil, List.length_cons, List.range'_succ]

/-- The namespaces that are added have the next numbers. -/
theorem exists_numbers_ensure (next : ℕ) (ns : List Namespace) (f : NamespaceForest α) :
    ∃ k, (f.ensure next ns).2 = next + k ∧
      (f.ensure next ns).1.numbers.Perm (f.numbers ++ List.range' next k) := by
  induction f generalizing next ns with
  | none =>
    cases ns with
    | nil => exact ⟨0, rfl, .nil⟩
    | cons n ns =>
      obtain ⟨hnext, hnumbers⟩ := numbers_grow (α := α) next (n :: ns)
      exact ⟨_, hnext, .of_eq hnumbers⟩
  | node number decl types children siblings ihChildren ihSiblings =>
    cases ns with
    | nil => exact ⟨0, rfl, by rw [List.range'_zero, List.append_nil]; exact .refl _⟩
    | cons n ns =>
      simp only [ensure]
      split
      · obtain ⟨k, hnext, hnumbers⟩ := ihChildren next ns
        refine ⟨k, hnext, ?_⟩
        rw [List.perm_iff_count] at hnumbers ⊢
        intro i
        simp only [numbers, List.count_cons, List.count_append, hnumbers]
        omega
      · obtain ⟨k, hnext, hnumbers⟩ := ihSiblings next (n :: ns)
        refine ⟨k, hnext, ?_⟩
        rw [List.perm_iff_count] at hnumbers ⊢
        intro i
        simp only [numbers, List.count_cons, List.count_append, hnumbers]
        omega

theorem mem_numbers_ensure {next i : ℕ} {ns : List Namespace} {f : NamespaceForest α}
    (h : i ∈ (f.ensure next ns).1.numbers) : i ∈ f.numbers ∨ next ≤ i := by
  obtain ⟨k, -, hnumbers⟩ := f.exists_numbers_ensure next ns
  rw [hnumbers.mem_iff, List.mem_append, List.mem_range'_1] at h
  exact h.imp_right And.left

@[simp] theorem typeCells_grow (next : ℕ) (ns : List Namespace) :
    (grow next ns : NamespaceForest α × ℕ).1.typeCells = [] := by
  induction ns generalizing next with
  | nil => rfl
  | cons n ns ih => simp [grow, typeCells, TypeForest.cells, ih]

/-- New namespaces hold no types. -/
@[simp] theorem typeCells_ensure (next : ℕ) (ns : List Namespace) (f : NamespaceForest α) :
    (f.ensure next ns).1.typeCells = f.typeCells := by
  induction f generalizing next ns with
  | none =>
    cases ns with
    | nil => rfl
    | cons n ns => exact typeCells_grow next (n :: ns)
  | node number decl types children siblings ihChildren ihSiblings =>
    cases ns with
    | nil => rfl
    | cons n ns =>
      simp only [ensure]
      split
      · rw [typeCells, ihChildren, typeCells]
      · rw [typeCells, ihSiblings, typeCells]

theorem isAscending_grow (next : ℕ) (ns : List Namespace) :
    (grow next ns : NamespaceForest α × ℕ).1.IsAscending := by
  induction ns generalizing next with
  | nil => trivial
  | cons n ns ih =>
    refine ⟨fun i hi => ?_, trivial, ih (next + 1), trivial⟩
    rw [(numbers_grow (next + 1) ns).2, List.mem_range'_1] at hi
    omega

theorem IsAscending.ensure {f : NamespaceForest α} (h : f.IsAscending) {next : ℕ}
    (hlt : ∀ i ∈ f.numbers, i < next) (ns : List Namespace) :
    (f.ensure next ns).1.IsAscending := by
  induction f generalizing ns with
  | none =>
    cases ns with
    | nil => trivial
    | cons n ns => exact isAscending_grow next (n :: ns)
  | node number decl types children siblings ihChildren ihSiblings =>
    cases ns with
    | nil => exact h
    | cons n ns =>
      obtain ⟨hbelow, htypes, hchildren, hsiblings⟩ := h
      simp only [numbers, List.forall_mem_cons, List.forall_mem_append] at hlt
      simp only [NamespaceForest.ensure]
      split
      · refine ⟨fun i hi => ?_, htypes, ihChildren hchildren hlt.2.1 ns, hsiblings⟩
        rcases mem_numbers_ensure hi with hold | hnew
        · exact hbelow i hold
        · exact Nat.lt_of_lt_of_le hlt.1 hnew
      · exact ⟨hbelow, htypes, hchildren, ihSiblings hsiblings hlt.2.2 (n :: ns)⟩

@[simp] theorem numbers_setTypesAt (new : TypeForest α) (ns : List Namespace)
    (f : NamespaceForest α) : (f.setTypesAt new ns).numbers = f.numbers := by
  induction f generalizing ns with
  | none => cases ns <;> rfl
  | node number decl types children siblings ihChildren ihSiblings =>
    cases ns with
    | nil => rfl
    | cons n ns =>
      simp only [setTypesAt]
      split
      · split
        · rfl
        · rw [numbers, ihChildren, numbers]
      · rw [numbers, ihSiblings, numbers]

theorem IsAscending.setTypesAt {f : NamespaceForest α} (h : f.IsAscending) {new : TypeForest α}
    (hnew : new.IsAscending) (ns : List Namespace) : (f.setTypesAt new ns).IsAscending := by
  induction f generalizing ns with
  | none => cases ns <;> trivial
  | node number decl types children siblings ihChildren ihSiblings =>
    cases ns with
    | nil => exact h
    | cons n ns =>
      obtain ⟨hbelow, htypes, hchildren, hsiblings⟩ := h
      simp only [NamespaceForest.setTypesAt]
      split
      · split
        · exact ⟨hbelow, hnew, hchildren, hsiblings⟩
        · exact ⟨by rwa [numbers_setTypesAt], htypes, ihChildren hchildren ns, hsiblings⟩
      · exact ⟨hbelow, htypes, hchildren, ihSiblings hsiblings (n :: ns)⟩

theorem IsAscending.typesAt {f : NamespaceForest α} (h : f.IsAscending) (ns : List Namespace) :
    (f.typesAt ns).IsAscending := by
  induction f generalizing ns with
  | none => cases ns <;> trivial
  | node number decl types children siblings ihChildren ihSiblings =>
    cases ns with
    | nil => trivial
    | cons n ns =>
      obtain ⟨hbelow, htypes, hchildren, hsiblings⟩ := h
      simp only [NamespaceForest.typesAt]
      split
      · split
        · exact htypes
        · exact ihChildren hchildren ns
      · exact ihSiblings hsiblings (n :: ns)

theorem numbers_prune_sublist (f : NamespaceForest α) :
    f.prune.numbers.Sublist f.numbers ∧ f.prune.typeNumbers.Sublist f.typeNumbers := by
  induction f with
  | none => exact ⟨.refl _, .refl _⟩
  | node number decl types children siblings ihChildren ihSiblings =>
    simp only [prune]
    split
    · exact ⟨(ihSiblings.1.trans (List.sublist_append_right _ _)).cons number,
        ihSiblings.2.trans (List.sublist_append_right _ _)⟩
    · exact ⟨(ihChildren.1.append ihSiblings.1).cons_cons number,
        (types.numbers_prune_sublist.append ihChildren.2).append ihSiblings.2⟩

theorem IsAscending.prune {f : NamespaceForest α} (h : f.IsAscending) : f.prune.IsAscending := by
  induction f with
  | none => trivial
  | node number decl types children siblings ihChildren ihSiblings =>
    obtain ⟨hbelow, htypes, hchildren, hsiblings⟩ := h
    simp only [NamespaceForest.prune]
    split
    · exact ihSiblings hsiblings
    · refine ⟨fun i hi => ?_, htypes.prune, ihChildren hchildren, ihSiblings hsiblings⟩
      exact hbelow i (children.numbers_prune_sublist.1.subset hi)

theorem topNumbers_subset (f : NamespaceForest α) : f.topNumbers ⊆ f.numbers := by
  intro i hi
  exact f.numbers_perm.mem_iff.2 (List.mem_append_left _ hi)

/-- A namespace has a smaller number than the namespaces that are entered into it, and a type than
the types that are entered into it. -/
theorem IsAscending.lt {f : NamespaceForest α} (h : f.IsAscending) :
    (∀ x ∈ f.cells, ∀ c ∈ x.2.children, x.1 < c.2) ∧
      ∀ x ∈ f.typeCells, ∀ c ∈ x.2.nested, x.1 < c.2 := by
  induction f with
  | none => exact ⟨List.forall_mem_nil _, List.forall_mem_nil _⟩
  | node number decl types children siblings ihChildren ihSiblings =>
    obtain ⟨hbelow, htypes, hchildren, hsiblings⟩ := h
    simp only [cells, typeCells, List.forall_mem_cons, List.forall_mem_append]
    refine ⟨⟨fun c hc => hbelow c.2 (children.topNumbers_subset (List.mem_map_of_mem hc)),
      (ihChildren hchildren).1, (ihSiblings hsiblings).1⟩,
      ⟨htypes.lt, (ihChildren hchildren).2⟩, (ihSiblings hsiblings).2⟩

end NamespaceForest

/-! ## Trees -/

namespace DeclarationTree

/-- The nodes of a tree have numbers of their own, all below the next ones. A node has a smaller
number than all nodes of its kind below it. -/
structure IsNumbered (t : DeclarationTree α) : Prop where
  namespaces_nodup : t.namespaceNumbers.Nodup
  types_nodup : t.typeNumbers.Nodup
  namespaces_lt : ∀ i ∈ t.namespaceNumbers, i < t.nextNamespace
  types_lt : ∀ i ∈ t.typeNumbers, i < t.nextType
  types_ascend : t.types.IsAscending
  namespaces_ascend : t.namespaces.IsAscending

theorem isNumbered_empty (pass : Pass) : (empty pass : DeclarationTree α).IsNumbered where
  namespaces_nodup := List.nodup_singleton 0
  types_nodup := List.nodup_nil
  namespaces_lt := by simp [empty, namespaceNumbers, NamespaceForest.numbers]
  types_lt := List.forall_mem_nil _
  types_ascend := trivial
  namespaces_ascend := trivial

/-- The namespaces that are added have the next numbers. -/
theorem exists_namespaceNumbers_ensureNamespaces (t : DeclarationTree α) (ns : List Namespace) :
    ∃ k, (t.ensureNamespaces ns).nextNamespace = t.nextNamespace + k ∧
      (t.ensureNamespaces ns).namespaceNumbers.Perm
        (t.namespaceNumbers ++ List.range' t.nextNamespace k) := by
  obtain ⟨k, hnext, hnumbers⟩ := t.namespaces.exists_numbers_ensure t.nextNamespace ns
  exact ⟨k, hnext, hnumbers.cons 0⟩

@[simp] theorem typeNumbers_ensureNamespaces (t : DeclarationTree α) (ns : List Namespace) :
    (t.ensureNamespaces ns).typeNumbers = t.typeNumbers := by
  rw [← map_fst_typeCells, ← map_fst_typeCells, typeCells, typeCells, ensureNamespaces,
    NamespaceForest.typeCells_ensure]

@[simp] theorem namespaceNumbers_setTypesAt (t : DeclarationTree α) (ns : List Namespace)
    (new : TypeForest α) : (t.setTypesAt ns new).namespaceNumbers = t.namespaceNumbers := by
  unfold setTypesAt
  split
  · rfl
  · rw [namespaceNumbers, NamespaceForest.numbers_setTypesAt, namespaceNumbers]

/-- The numbers of types change only where the types do. -/
theorem typeNumbers_setTypesAt_perm {t : DeclarationTree α} {ns : List Namespace}
    (h : t.HasNamespaces ns) {new : TypeForest α} {added : List ℕ}
    (hnew : new.numbers.Perm ((t.typesAt ns).numbers ++ added)) :
    (t.setTypesAt ns new).typeNumbers.Perm (t.typeNumbers ++ added) := by
  obtain ⟨before, after, hcells, hset⟩ := exists_typeCells_of_hasNamespaces h
  rw [← map_fst_typeCells, ← map_fst_typeCells, hset, hcells]
  simp only [List.map_append, TypeForest.map_fst_cells, List.perm_iff_count, List.count_append]
    at hnew ⊢
  intro i
  rw [hnew]
  omega

theorem mem_typeNumbers_of_mem_typesAt {t : DeclarationTree α} {ns : List Namespace} {i : ℕ}
    (h : i ∈ (t.typesAt ns).numbers) : i ∈ t.typeNumbers := by
  have hne : t.typesAt ns ≠ .none := by
    intro hnone
    rw [hnone] at h
    cases h
  obtain ⟨before, after, hcells, -⟩ :=
    exists_typeCells_of_hasNamespaces (hasNamespaces_of_typesAt_ne hne)
  rw [← map_fst_typeCells, hcells, List.map_append, List.map_append, TypeForest.map_fst_cells]
  exact List.mem_append_left _ (List.mem_append_right _ h)

/-- The types that are added have the next numbers. -/
theorem exists_typeNumbers_ensure (t : DeclarationTree α) (c : Container) :
    ∃ k, (t.ensure c).nextType = t.nextType + k ∧
      (t.ensure c).typeNumbers.Perm (t.typeNumbers ++ List.range' t.nextType k) := by
  obtain ⟨k, hnext, hnumbers⟩ :=
    (t.typesAt c.namespaces).exists_numbers_ensure t.nextType c.types
  rw [← typesAt_ensureNamespaces t c.namespaces] at hnext hnumbers
  refine ⟨k, hnext, ?_⟩
  have hperm :=
    typeNumbers_setTypesAt_perm (hasNamespaces_ensureNamespaces t c.namespaces) hnumbers
  rw [typeNumbers_ensureNamespaces] at hperm
  exact hperm

@[simp] theorem nextNamespace_setTypesAt (t : DeclarationTree α) (ns : List Namespace)
    (new : TypeForest α) : (t.setTypesAt ns new).nextNamespace = t.nextNamespace := by
  unfold setTypesAt
  split <;> rfl

@[simp] theorem nextType_setTypesAt (t : DeclarationTree α) (ns : List Namespace)
    (new : TypeForest α) : (t.setTypesAt ns new).nextType = t.nextType := by
  unfold setTypesAt
  split <;> rfl

theorem nextNamespace_ensure (t : DeclarationTree α) (c : Container) :
    (t.ensure c).nextNamespace = (t.ensureNamespaces c.namespaces).nextNamespace :=
  nextNamespace_setTypesAt _ _ _

theorem namespaceNumbers_ensure (t : DeclarationTree α) (c : Container) :
    (t.ensure c).namespaceNumbers = (t.ensureNamespaces c.namespaces).namespaceNumbers :=
  namespaceNumbers_setTypesAt _ _ _

namespace IsNumbered

variable {t : DeclarationTree α}

theorem isAscending_typesAt (h : t.IsNumbered) (ns : List Namespace) :
    (t.typesAt ns).IsAscending := by
  unfold typesAt
  split
  · exact h.types_ascend
  · exact h.namespaces_ascend.typesAt ns

/-- New numbers are different from each other and from the old ones. -/
theorem nodup_append_range' {numbers : List ℕ} {next : ℕ} (hnodup : numbers.Nodup)
    (hlt : ∀ i ∈ numbers, i < next) (k : ℕ) :
    (numbers ++ List.range' next k).Nodup ∧
      ∀ i ∈ numbers ++ List.range' next k, i < next + k := by
  refine ⟨List.nodup_append.2 ⟨hnodup, List.nodup_range', fun i hi j hj => ?_⟩, fun i hi => ?_⟩
  · have hold := hlt i hi
    have hnew := (List.mem_range'_1.1 hj).1
    omega
  · rcases List.mem_append.1 hi with hold | hnew
    · have := hlt i hold
      omega
    · exact (List.mem_range'_1.1 hnew).2

theorem ensureNamespaces (h : t.IsNumbered) (ns : List Namespace) :
    (t.ensureNamespaces ns).IsNumbered := by
  obtain ⟨k, hnext, hnumbers⟩ := exists_namespaceNumbers_ensureNamespaces t ns
  obtain ⟨hnodup, hlt⟩ := nodup_append_range' h.namespaces_nodup h.namespaces_lt k
  refine ⟨hnumbers.nodup_iff.2 hnodup, ?_, fun i hi => ?_, ?_, h.types_ascend, ?_⟩
  · rw [typeNumbers_ensureNamespaces]
    exact h.types_nodup
  · rw [hnext]
    exact hlt i (hnumbers.mem_iff.1 hi)
  · rw [typeNumbers_ensureNamespaces]
    exact h.types_lt
  · exact h.namespaces_ascend.ensure
      (fun i hi => h.namespaces_lt i (List.mem_cons_of_mem 0 hi)) ns

theorem ascend_setTypesAt (h : t.IsNumbered) (ns : List Namespace) {new : TypeForest α}
    (hnew : new.IsAscending) :
    (t.setTypesAt ns new).types.IsAscending ∧ (t.setTypesAt ns new).namespaces.IsAscending := by
  unfold setTypesAt
  split
  · exact ⟨hnew, h.namespaces_ascend⟩
  · exact ⟨h.types_ascend, h.namespaces_ascend.setTypesAt hnew ns⟩

theorem ensure (h : t.IsNumbered) (c : Container) : (t.ensure c).IsNumbered := by
  have hgrown := h.ensureNamespaces c.namespaces
  obtain ⟨k, hnext, hnumbers⟩ := exists_typeNumbers_ensure t c
  obtain ⟨hnodup, hlt⟩ := nodup_append_range' h.types_nodup h.types_lt k
  have htypes : ((t.typesAt c.namespaces).ensure t.nextType c.types).1.IsAscending := by
    refine (h.isAscending_typesAt c.namespaces).ensure (fun i hi => h.types_lt i ?_) c.types
    exact mem_typeNumbers_of_mem_typesAt hi
  rw [← typesAt_ensureNamespaces t c.namespaces] at htypes
  obtain ⟨hascend, hascend'⟩ := hgrown.ascend_setTypesAt c.namespaces htypes
  refine ⟨?_, hnumbers.nodup_iff.2 hnodup, ?_, fun i hi => ?_, hascend, hascend'⟩
  · rw [namespaceNumbers_ensure]
    exact hgrown.namespaces_nodup
  · rw [namespaceNumbers_ensure, nextNamespace_ensure]
    exact hgrown.namespaces_lt
  · rw [hnext]
    exact hlt i (hnumbers.mem_iff.1 hi)

theorem place (h : t.IsNumbered) {c : Container} (hns : t.HasNamespaces c.namespaces)
    (member : Symbol) (value : α) : (t.place c member value).IsNumbered := by
  have hnumbers : (t.place c member value).typeNumbers.Perm t.typeNumbers := by
    have hplace : ((t.typesAt c.namespaces).place member value c.types).numbers.Perm
        ((t.typesAt c.namespaces).numbers ++ []) := by
      rw [TypeForest.numbers_place, List.append_nil]
    have hperm := typeNumbers_setTypesAt_perm hns hplace
    rwa [List.append_nil] at hperm
  obtain ⟨hascend, hascend'⟩ := h.ascend_setTypesAt c.namespaces
    ((h.isAscending_typesAt c.namespaces).place member value c.types)
  refine ⟨?_, hnumbers.nodup_iff.2 h.types_nodup, ?_, fun i hi => ?_, hascend, hascend'⟩
  · rw [DeclarationTree.place, namespaceNumbers_setTypesAt]
    exact h.namespaces_nodup
  · rw [DeclarationTree.place, namespaceNumbers_setTypesAt, nextNamespace_setTypesAt]
    exact h.namespaces_lt
  · rw [DeclarationTree.place, nextType_setTypesAt]
    exact h.types_lt i (hnumbers.mem_iff.1 hi)

theorem refuse (h : t.IsNumbered) (member : Symbol) : (t.refuse member).IsNumbered := by
  unfold DeclarationTree.refuse
  split
  · exact h
  · exact { h with }

/-- Nodes that are left keep their numbers. -/
theorem prune (h : t.IsNumbered) : t.prune.IsNumbered := by
  obtain ⟨hnamespaces, htypes⟩ := t.namespaces.numbers_prune_sublist
  have hnumbers : t.prune.namespaceNumbers.Sublist t.namespaceNumbers := hnamespaces.cons_cons 0
  have hnumbers' : t.prune.typeNumbers.Sublist t.typeNumbers :=
    t.types.numbers_prune_sublist.append htypes
  exact ⟨h.namespaces_nodup.sublist hnumbers, h.types_nodup.sublist hnumbers',
    fun i hi => h.namespaces_lt i (hnumbers.subset hi), fun i hi => h.types_lt i (hnumbers'.subset hi),
    h.types_ascend.prune, h.namespaces_ascend.prune⟩

theorem insert (h : t.IsNumbered) (c : Container) (member : Symbol)
    (report : Diagnostic → σ → σ) (accept : σ → Option α × σ) (s : σ) :
    (t.insert c member report accept s).2.1.IsNumbered := by
  have hensure := h.ensure c
  have hinserts := insert_inserts t c member report accept s
  generalize t.insert c member report accept s = r at hinserts
  cases hinserts with
  | blocked o _ => exact hensure
  | untyped _ => exact hensure
  | present _ => exact hensure
  | refused _ _ => exact hensure
  | accepted value _ _ _ _ _ _ =>
    exact hensure.place ((hasNamespaces_ensureNamespaces t c.namespaces).setTypesAt c.namespaces _)
      member value
  | declined _ _ _ _ _ _ => exact hensure.refuse member

/-- A node has a smaller number than the nodes of its kind that are entered into it. -/
theorem lt (h : t.IsNumbered) :
    (∀ x ∈ t.namespaceCells, ∀ c ∈ x.2.children, x.1 < c.2) ∧
      ∀ x ∈ t.typeCells, ∀ c ∈ x.2.nested, x.1 < c.2 := by
  obtain ⟨hchildren, hnested⟩ := h.namespaces_ascend.lt
  simp only [namespaceCells, typeCells, List.forall_mem_cons, List.forall_mem_append]
  refine ⟨⟨fun c hc => ?_, hchildren⟩, h.types_ascend.lt, hnested⟩
  have hmem : c.2 ∈ t.namespaces.numbers :=
    t.namespaces.topNumbers_subset (List.mem_map_of_mem hc)
  have hne : (0 : ℕ) ∉ t.namespaces.numbers := (List.nodup_cons.1 h.namespaces_nodup).1
  exact Nat.pos_of_ne_zero fun hzero => hne (hzero ▸ hmem)

end IsNumbered
end DeclarationTree
end NativeBindings
