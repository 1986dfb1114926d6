import NativeBindings.Proofs.DeclarationTree.Types

/-!
# Forests of namespaces

A path of namespaces is a way to a forest of types, which can be read and replaced. Growing a path
changes no types, replacing the types of one path leaves those of all others as they are, and
pruning a path prunes its types.

## Main definitions

- `NamespaceForest.HasPath` — there is a node at the end of a path
-/

namespace NativeBindings.NamespaceForest

variable {α : Type}

/-- There is a node at the end of a path. -/
def HasPath : List Namespace → NamespaceForest α → Prop
  | [], _ => False
  | _ :: _, none => False
  | n :: ns, node _ decl _ children siblings =>
    if decl.id = n.id then ns = [] ∨ children.HasPath ns else siblings.HasPath (n :: ns)

theorem isNone_iff {f : NamespaceForest α} : f.isNone = true ↔ f = none := by
  cases f <;> simp [isNone]

@[simp] theorem typesAt_nil (f : NamespaceForest α) : f.typesAt [] = .none := by
  cases f <;> rfl

@[simp] theorem typesAt_none (ns : List Namespace) :
    (none : NamespaceForest α).typesAt ns = .none := by
  cases ns <;> rfl

theorem typesAt_congr {ns us : List Namespace} (f : NamespaceForest α)
    (h : ns.map (·.id) = us.map (·.id)) : f.typesAt ns = f.typesAt us := by
  induction f generalizing ns us with
  | none => simp
  | node number decl types children siblings ihChildren ihSiblings =>
    cases ns with
    | nil =>
      have hus : us = [] := by simpa using h.symm
      rw [hus]
    | cons n ns =>
      cases us with
      | nil => simp at h
      | cons u us =>
        obtain ⟨hid, hrest⟩ : n.id = u.id ∧ ns.map (·.id) = us.map (·.id) := by simpa using h
        have hempty : ns.isEmpty = us.isEmpty := by
          simpa using congrArg List.isEmpty hrest
        simp only [typesAt, hid, hempty, ihChildren hrest, ihSiblings h]

/-! ## Growing -/

@[simp] theorem entries_grow (next : Nat) (ns : List Namespace) :
    (grow next ns : NamespaceForest α × Nat).1.entries = [] := by
  induction ns generalizing next with
  | nil => rfl
  | cons n ns ih => simp [grow, entries, TypeForest.entries, ih]

@[simp] theorem entries_ensure (next : Nat) (ns : List Namespace) (f : NamespaceForest α) :
    (f.ensure next ns).1.entries = f.entries := by
  induction f generalizing next ns with
  | none => cases ns <;> simp [ensure, entries]
  | node number decl types children siblings ihChildren ihSiblings =>
    cases ns with
    | nil => rfl
    | cons n ns =>
      simp only [ensure]
      split
      · simp [entries, ihChildren]
      · simp [entries, ihSiblings]

@[simp] theorem typesAt_grow (next : Nat) (ns us : List Namespace) :
    (grow next ns : NamespaceForest α × Nat).1.typesAt us = .none := by
  induction ns generalizing next us with
  | nil => simp [grow]
  | cons n ns ih =>
    cases us with
    | nil => simp
    | cons u us => simp [grow, typesAt, ih]

/-- New namespaces hold no types. -/
@[simp] theorem typesAt_ensure (next : Nat) (ns us : List Namespace) (f : NamespaceForest α) :
    (f.ensure next ns).1.typesAt us = f.typesAt us := by
  induction f generalizing next ns us with
  | none => cases ns <;> simp [ensure]
  | node number decl types children siblings ihChildren ihSiblings =>
    cases ns with
    | nil => rfl
    | cons n ns =>
      cases us with
      | nil => simp
      | cons u us =>
        simp only [ensure]
        split
        · simp [typesAt, ihChildren]
        · simp [typesAt, ihSiblings]

theorem hasPath_grow (next : Nat) {ns : List Namespace} (hne : ns ≠ []) :
    (grow next ns : NamespaceForest α × Nat).1.HasPath ns := by
  induction ns generalizing next with
  | nil => exact absurd rfl hne
  | cons n ns ih =>
    by_cases hns : ns = []
    · simp [grow, HasPath, hns]
    · simpa [grow, HasPath, hns] using ih (next + 1) hns

theorem hasPath_ensure (next : Nat) {ns : List Namespace} (hne : ns ≠ []) (f : NamespaceForest α) :
    (f.ensure next ns).1.HasPath ns := by
  induction f generalizing next ns with
  | none =>
    obtain ⟨n, us, rfl⟩ := List.exists_cons_of_ne_nil hne
    exact hasPath_grow next hne
  | node number decl types children siblings ihChildren ihSiblings =>
    obtain ⟨n, us, rfl⟩ := List.exists_cons_of_ne_nil hne
    by_cases hid : decl.id = n.id
    · by_cases hus : us = []
      · simp [ensure, HasPath, hid, hus]
      · simpa [ensure, HasPath, hid, hus] using ihChildren next hus
    · simpa [ensure, HasPath, hid] using ihSiblings next hne

theorem hasPath_of_typesAt_ne {ns : List Namespace} {f : NamespaceForest α}
    (h : f.typesAt ns ≠ .none) : f.HasPath ns := by
  induction f generalizing ns with
  | none => simp at h
  | node number decl types children siblings ihChildren ihSiblings =>
    cases ns with
    | nil => simp at h
    | cons n ns =>
      by_cases hid : decl.id = n.id
      · by_cases hns : ns = []
        · simp [HasPath, hid, hns]
        · have hbelow : children.typesAt ns ≠ .none := by simpa [typesAt, hid, hns] using h
          simpa [HasPath, hid, hns] using ihChildren hbelow
      · have hbehind : siblings.typesAt (n :: ns) ≠ .none := by simpa [typesAt, hid] using h
        simpa [HasPath, hid] using ihSiblings hbehind

/-! ## Replacing types -/

/-- The entries of a namespace stand together, and are all that changes when its types do. -/
theorem exists_entries_of_hasPath {ns : List Namespace} {f : NamespaceForest α} (h : f.HasPath ns) :
    ∃ before after, f.entries = before ++ (f.typesAt ns).entries ++ after ∧
      ∀ new, (f.setTypesAt new ns).entries = before ++ new.entries ++ after := by
  induction f generalizing ns with
  | none => cases ns <;> simp [HasPath] at h
  | node number decl types children siblings ihChildren ihSiblings =>
    cases ns with
    | nil => simp [HasPath] at h
    | cons n ns =>
      simp only [HasPath] at h
      by_cases hid : decl.id = n.id
      · by_cases hns : ns = []
        · exact ⟨[], children.entries ++ siblings.entries, by simp [entries, typesAt, hid, hns],
            fun new => by simp [setTypesAt, hid, hns, entries]⟩
        · simp only [hid, if_true, hns, false_or] at h
          obtain ⟨before, after, hentries, hset⟩ := ihChildren h
          refine ⟨types.entries ++ before, after ++ siblings.entries, ?_, fun new => ?_⟩
          · simp [entries, typesAt, hid, hns, hentries]
          · simp [setTypesAt, hid, hns, entries, hset]
      · simp only [hid, if_false] at h
        obtain ⟨before, after, hentries, hset⟩ := ihSiblings h
        refine ⟨types.entries ++ children.entries ++ before, after, ?_, fun new => ?_⟩
        · simp [entries, typesAt, hid, hentries]
        · simp [setTypesAt, hid, entries, hset]

/-- Replaced types are read back, and those at other paths stay as they are. -/
theorem typesAt_setTypesAt (new : TypeForest α) {ns : List Namespace} {f : NamespaceForest α}
    (h : f.HasPath ns) (us : List Namespace) :
    (f.setTypesAt new ns).typesAt us =
      if ns.map (·.id) = us.map (·.id) then new else f.typesAt us := by
  induction f generalizing ns us with
  | none => cases ns <;> simp [HasPath] at h
  | node number decl types children siblings ihChildren ihSiblings =>
    cases ns with
    | nil => simp [HasPath] at h
    | cons n ns =>
      cases us with
      | nil => simp
      | cons u us =>
        simp only [HasPath] at h
        -- both paths lead to this namespace, one of them does, or neither
        by_cases hn : decl.id = n.id
        · by_cases hu : decl.id = u.id
          · have hnu : n.id = u.id := hn.symm.trans hu
            by_cases hns : ns = []
            · subst hns
              by_cases hus : us = [] <;> simp [setTypesAt, typesAt, hn, hnu, hus]
            · simp only [hn, if_true, hns, false_or] at h
              by_cases hus : us = []
              · simp [setTypesAt, typesAt, hn, hnu, hns, hus]
              · simpa [setTypesAt, typesAt, hn, hnu, hns, hus] using ihChildren h us
          · have hnu : n.id ≠ u.id := fun e => hu (hn.trans e)
            by_cases hns : ns = [] <;> simp [setTypesAt, typesAt, hn, hnu, hns]
        · simp only [hn, if_false] at h
          by_cases hu : decl.id = u.id
          · have hnu : n.id ≠ u.id := fun e => hn (hu.trans e.symm)
            simp [setTypesAt, typesAt, hu, hnu, hnu.symm]
          · simpa [setTypesAt, typesAt, hn, hu] using ihSiblings h (u :: us)

/-! ## Pruning -/

@[simp] theorem entries_prune (f : NamespaceForest α) : f.prune.entries = f.entries := by
  induction f with
  | none => rfl
  | node number decl types children siblings ihChildren ihSiblings =>
    simp only [prune]
    split
    · rename_i h
      obtain ⟨htypes, hchildren⟩ : types.prune = .none ∧ children.prune = none := by
        simpa [isNone_iff, TypeForest.isNone_iff] using h
      have htypes' : types.entries = [] := by
        rw [← TypeForest.entries_prune, htypes]
        rfl
      have hchildren' : children.entries = [] := by
        rw [← ihChildren, hchildren]
        rfl
      simp [entries, htypes', hchildren', ihSiblings]
    · simp [entries, ihChildren, ihSiblings]

/-- Nothing is left of namespaces without members. -/
theorem prune_eq_none_iff {f : NamespaceForest α} : f.prune = none ↔ f.entries = [] := by
  constructor
  · intro h
    rw [← entries_prune, h]
    rfl
  · intro h
    induction f with
    | none => rfl
    | node number decl types children siblings ihChildren ihSiblings =>
      simp only [entries, List.append_eq_nil_iff] at h
      obtain ⟨⟨htypes, hchildren⟩, hsiblings⟩ := h
      rw [prune, TypeForest.prune_eq_none_iff.2 htypes, ihChildren hchildren, ihSiblings hsiblings]
      rfl

/-- Types that are not pruned away are still found. -/
theorem typesAt_prune {ns : List Namespace} {f : NamespaceForest α}
    (h : (f.typesAt ns).prune ≠ .none) : f.prune.typesAt ns = (f.typesAt ns).prune := by
  induction f generalizing ns with
  | none => simp [TypeForest.prune] at h
  | node number decl types children siblings ihChildren ihSiblings =>
    cases ns with
    | nil => simp [TypeForest.prune] at h
    | cons n ns =>
      simp only [prune]
      by_cases hid : decl.id = n.id
      · by_cases hns : ns = []
        · have htypes : types.prune ≠ .none := by simpa [typesAt, hid, hns] using h
          simp [TypeForest.isNone_iff, htypes, typesAt, hid, hns]
        · have hbelow : (children.typesAt ns).prune ≠ .none := by
            simpa [typesAt, hid, hns] using h
          have hfound := ihChildren hbelow
          -- the namespace is kept for what is found below it
          have hkept : children.prune ≠ none := by
            intro hnone
            rw [hnone, typesAt_none] at hfound
            exact hbelow hfound.symm
          simpa [isNone_iff, hkept, typesAt, hid, hns] using hfound
      · have hbehind : (siblings.typesAt (n :: ns)).prune ≠ .none := by
          simpa [typesAt, hid] using h
        have hfound := ihSiblings hbehind
        split
        · simpa [typesAt, hid] using hfound
        · simpa [typesAt, hid] using hfound

end NativeBindings.NamespaceForest
