import NativeBindings.Proofs.DeclarationTree.Insertion

/-!
# Nodes of a declaration tree

Insertions leave nodes behind, also those that fail. A type without a node is looked at before it
gets one, and a type with a node is not looked at again. As long as all declarations of a type agree
on whether it can be extended, this makes no difference: the obstacle of a container is its
outermost type that cannot be extended, whatever the tree holds, and a container that was ensured
once is covered from then on.

## Main definitions

- `Container.obstacle?` — the outermost type of a container that cannot be extended
- `DeclarationTree.declarations` — the types with a node
- `DeclarationTree.Covers` — no node is missing on the way to a container

## Main statements

- `DeclarationTree.obstacle?_eq` — the obstacle of a container does not depend on the tree
- `DeclarationTree.ensure_of_covers` — a covered container gets no further nodes
-/

namespace NativeBindings

/-- The outermost type that cannot be extended. -/
def Container.obstacle? (c : Container) : Option Obstacle :=
  c.types.zipIdx.findSome? fun (t, depth) => if t.isExtensible then none else some ⟨depth, t⟩

theorem Container.obstacle?_eq_none {c : Container} :
    c.obstacle? = none ↔ ∀ t ∈ c.types, t.isExtensible = true := by
  rw [obstacle?, List.findSome?_eq_none_iff]
  constructor
  · intro h t ht
    obtain ⟨i, hget⟩ := List.mem_iff_getElem?.1 ht
    have hnone := h (t, i) (List.mk_mem_zipIdx_iff_getElem?.2 hget)
    by_contra hext
    simp [hext] at hnone
  · intro h x hx
    have hmem : x.1 ∈ c.types := List.fst_mem_of_mem_zipIdx hx
    simp [h x.1 hmem]

/-- Types with the same identity agree on whether they can be extended. -/
def AgreeOnExtension (ts us : List EnclosingType) : Prop :=
  ∀ t ∈ ts, ∀ u ∈ us, t.id = u.id → t.isExtensible = u.isExtensible

/-- Types with the same identity are the same. -/
def AreUniform (ts : List EnclosingType) : Prop := ∀ t ∈ ts, ∀ u ∈ ts, t.id = u.id → t = u

instance (ts : List EnclosingType) : Decidable (AreUniform ts) :=
  inferInstanceAs (Decidable (∀ t ∈ ts, ∀ u ∈ ts, t.id = u.id → t = u))

theorem AreUniform.subset {ts us : List EnclosingType} (h : AreUniform us) (hsub : ts ⊆ us) :
    AreUniform ts :=
  fun t ht u hu => h t (hsub ht) u (hsub hu)

theorem AreUniform.agreeOnExtension {ts : List EnclosingType} (h : AreUniform ts) :
    AgreeOnExtension ts ts :=
  fun t ht u hu hid => congrArg EnclosingType.isExtensible (h t ht u hu hid)

variable {α : Type}

namespace TypeForest

/-- The types of all nodes. -/
def declarations : TypeForest α → List EnclosingType
  | none => []
  | node _ type _ nested siblings => type :: (nested.declarations ++ siblings.declarations)

theorem mem_declarations_grow {next : Nat} {ts : List EnclosingType} {t : EnclosingType}
    (h : t ∈ (grow next ts : TypeForest α × Nat).1.declarations) :
    t ∈ ts ∧ t.isExtensible = true := by
  induction ts generalizing next with
  | nil => cases h
  | cons u us ih =>
    simp only [grow] at h
    split at h
    · rename_i hext
      simp only [declarations, List.append_nil, List.mem_cons] at h
      rcases h with rfl | h
      · exact ⟨List.mem_cons_self, hext⟩
      · obtain ⟨hmem, hext'⟩ := ih h
        exact ⟨List.mem_cons_of_mem u hmem, hext'⟩
    · cases h

/-- Only types that can be extended get a node. -/
theorem mem_declarations_ensure {next : Nat} {ts : List EnclosingType} {f : TypeForest α}
    {t : EnclosingType} (h : t ∈ (f.ensure next ts).1.declarations) :
    t ∈ f.declarations ∨ t ∈ ts ∧ t.isExtensible = true := by
  induction f generalizing next ts with
  | none =>
    cases ts with
    | nil => cases h
    | cons u us => exact .inr (mem_declarations_grow h)
  | node number type members nested siblings ihNested ihSiblings =>
    cases ts with
    | nil => exact .inl h
    | cons u us =>
      simp only [ensure] at h
      split at h
      · simp only [declarations, List.mem_cons, List.mem_append] at h ⊢
        rcases h with h | h | h
        · exact .inl (.inl h)
        · rcases ihNested h with hold | ⟨hmem, hext⟩
          · exact .inl (.inr (.inl hold))
          · exact .inr ⟨.inr hmem, hext⟩
        · exact .inl (.inr (.inr h))
      · simp only [declarations, List.mem_cons, List.mem_append] at h ⊢
        rcases h with h | h | h
        · exact .inl (.inl h)
        · exact .inl (.inr (.inl h))
        · rcases ihSiblings h with hold | ⟨hmem, hext⟩
          · exact .inl (.inr (.inr hold))
          · exact .inr ⟨List.mem_cons.1 hmem, hext⟩

@[simp] theorem declarations_place (member : Symbol) (value : α) (ts : List EnclosingType)
    (f : TypeForest α) : (f.place member value ts).declarations = f.declarations := by
  induction f generalizing ts with
  | none => cases ts <;> rfl
  | node number type members nested siblings ihNested ihSiblings =>
    cases ts with
    | nil => rfl
    | cons t ts =>
      simp only [place]
      split
      · split
        · rfl
        · rw [declarations, ihNested, declarations]
      · rw [declarations, ihSiblings, declarations]

/-- If all nodes are of types that can be extended, it does not matter which nodes there are. -/
theorem obstacle?_eq {f : TypeForest α} {ts : List EnclosingType}
    (h : ∀ t ∈ f.declarations, ∀ u ∈ ts, t.id = u.id → u.isExtensible = true) (depth : Nat) :
    f.obstacle? depth ts = (ts.zipIdx depth).findSome? fun (t, depth) =>
      if t.isExtensible then Option.none else some ⟨depth, t⟩ := by
  induction f generalizing depth ts with
  | none => cases ts <;> rfl
  | node number type members nested siblings ihNested ihSiblings =>
    cases ts with
    | nil => rfl
    | cons t ts =>
      simp only [obstacle?]
      split
      · rename_i hid
        have hext : t.isExtensible = true := h type List.mem_cons_self t List.mem_cons_self hid
        have hnested :
            ∀ u ∈ nested.declarations, ∀ v ∈ ts, u.id = v.id → v.isExtensible = true := by
          intro u hu v hv
          exact h u (List.mem_cons_of_mem _ (List.mem_append_left _ hu)) v
            (List.mem_cons_of_mem _ hv)
        rw [ihNested hnested, List.zipIdx_cons, List.findSome?_cons, if_pos hext]
      · have hsiblings : ∀ u ∈ siblings.declarations, ∀ v ∈ t :: ts,
            u.id = v.id → v.isExtensible = true := by
          intro u hu v hv
          exact h u (List.mem_cons_of_mem _ (List.mem_append_right _ hu)) v hv
        exact ihSiblings hsiblings depth

/-! ## Covered paths -/

/-- The types of a path have nodes, up to the first that cannot be extended. -/
def Covers : List EnclosingType → TypeForest α → Prop
  | [], _ => True
  | t :: _, none => t.isExtensible = false
  | t :: ts, node _ type _ nested siblings =>
    if type.id = t.id then nested.Covers ts else siblings.Covers (t :: ts)

@[simp] theorem covers_nil (f : TypeForest α) : f.Covers [] := by
  cases f <;> trivial

/-- No node is added to a covered path. -/
theorem ensure_of_covers {f : TypeForest α} {ts : List EnclosingType} (h : f.Covers ts)
    (next : Nat) : f.ensure next ts = (f, next) := by
  induction f generalizing next ts with
  | none =>
    cases ts with
    | nil => rfl
    | cons t ts =>
      have hext : t.isExtensible = false := h
      simp [ensure, grow, hext]
  | node number type members nested siblings ihNested ihSiblings =>
    cases ts with
    | nil => rfl
    | cons t ts =>
      simp only [Covers] at h
      simp only [ensure]
      split
      · rename_i hid
        rw [if_pos hid] at h
        rw [ihNested h next]
      · rename_i hid
        rw [if_neg hid] at h
        rw [ihSiblings h next]

theorem covers_grow_self (next : Nat) (ts : List EnclosingType) :
    (grow next ts : TypeForest α × Nat).1.Covers ts := by
  induction ts generalizing next with
  | nil => simp
  | cons t ts ih =>
    simp only [grow]
    split
    · simpa [Covers] using ih (next + 1)
    · rename_i hext
      simpa [Covers] using hext

theorem covers_ensure_self (next : Nat) (ts : List EnclosingType) (f : TypeForest α) :
    (f.ensure next ts).1.Covers ts := by
  induction f generalizing next ts with
  | none =>
    cases ts with
    | nil => simp
    | cons t ts => exact covers_grow_self next (t :: ts)
  | node number type members nested siblings ihNested ihSiblings =>
    cases ts with
    | nil => simp
    | cons t ts =>
      simp only [ensure]
      split
      · rename_i hid
        simpa [Covers, hid] using ihNested next ts
      · rename_i hid
        simpa [Covers, hid] using ihSiblings next (t :: ts)

/-- A type that stops a path gets no node when another path is ensured. -/
theorem Covers.grow {ts us : List EnclosingType} (h : (none : TypeForest α).Covers ts)
    (hagree : AgreeOnExtension ts us) (next : Nat) :
    (TypeForest.grow next us : TypeForest α × Nat).1.Covers ts := by
  cases ts with
  | nil => simp
  | cons t ts =>
    have hstop : t.isExtensible = false := h
    cases us with
    | nil => exact hstop
    | cons u us =>
      simp only [TypeForest.grow]
      split
      · rename_i hext
        have hne : u.id ≠ t.id := by
          intro hid
          have hsame := hagree t List.mem_cons_self u List.mem_cons_self hid.symm
          rw [hstop, hext] at hsame
          cases hsame
        rw [Covers, if_neg hne]
        exact hstop
      · exact hstop

theorem Covers.ensure {f : TypeForest α} {ts us : List EnclosingType} (h : f.Covers ts)
    (hagree : AgreeOnExtension ts us) (next : Nat) : (f.ensure next us).1.Covers ts := by
  induction f generalizing next ts us with
  | none =>
    cases us with
    | nil => exact h
    | cons u us => exact h.grow hagree next
  | node number type members nested siblings ihNested ihSiblings =>
    cases ts with
    | nil => simp
    | cons t ts =>
      cases us with
      | nil => exact h
      | cons u us =>
        simp only [Covers] at h
        simp only [TypeForest.ensure]
        by_cases ht : type.id = t.id
        · rw [if_pos ht] at h
          have hrest : AgreeOnExtension ts us := fun t' ht' u' hu' =>
            hagree t' (List.mem_cons_of_mem _ ht') u' (List.mem_cons_of_mem _ hu')
          split
          · simpa [Covers, ht] using ihNested h hrest next
          · simpa [Covers, ht] using h
        · rw [if_neg ht] at h
          split
          · simpa [Covers, ht] using h
          · simpa [Covers, ht] using ihSiblings h hagree next

theorem Covers.place {f : TypeForest α} {ts : List EnclosingType} (h : f.Covers ts)
    (member : Symbol) (value : α) (us : List EnclosingType) :
    (f.place member value us).Covers ts := by
  induction f generalizing ts us with
  | none =>
    cases us <;> exact h
  | node number type members nested siblings ihNested ihSiblings =>
    cases ts with
    | nil => simp
    | cons t ts =>
      cases us with
      | nil => exact h
      | cons u us =>
        simp only [Covers] at h
        simp only [TypeForest.place]
        by_cases ht : type.id = t.id
        · rw [if_pos ht] at h
          split
          · split
            · simpa [Covers, ht] using h
            · simpa [Covers, ht] using ihNested h us
          · simpa [Covers, ht] using h
        · rw [if_neg ht] at h
          split
          · split
            · simpa [Covers, ht] using h
            · simpa [Covers, ht] using h
          · simpa [Covers, ht] using ihSiblings h (u :: us)

end TypeForest

namespace NamespaceForest

/-- The types of all nodes in all namespaces. -/
def declarations : NamespaceForest α → List EnclosingType
  | none => []
  | node _ _ types children siblings =>
    types.declarations ++ children.declarations ++ siblings.declarations

@[simp] theorem declarations_grow (next : Nat) (ns : List Namespace) :
    (grow next ns : NamespaceForest α × Nat).1.declarations = [] := by
  induction ns generalizing next with
  | nil => rfl
  | cons n ns ih => simp [grow, declarations, TypeForest.declarations, ih]

@[simp] theorem declarations_ensure (next : Nat) (ns : List Namespace) (f : NamespaceForest α) :
    (f.ensure next ns).1.declarations = f.declarations := by
  induction f generalizing next ns with
  | none =>
    cases ns with
    | nil => rfl
    | cons n ns => exact declarations_grow next (n :: ns)
  | node number decl types children siblings ihChildren ihSiblings =>
    cases ns with
    | nil => rfl
    | cons n ns =>
      simp only [ensure]
      split
      · rw [declarations, ihChildren, declarations]
      · rw [declarations, ihSiblings, declarations]

theorem mem_declarations_of_mem_typesAt {ns : List Namespace} {f : NamespaceForest α}
    {t : EnclosingType} (h : t ∈ (f.typesAt ns).declarations) : t ∈ f.declarations := by
  induction f generalizing ns with
  | none => cases ns <;> cases h
  | node number decl types children siblings ihChildren ihSiblings =>
    cases ns with
    | nil => cases h
    | cons n ns =>
      simp only [declarations, List.mem_append]
      simp only [typesAt] at h
      split at h
      · split at h
        · exact .inl (.inl h)
        · exact .inl (.inr (ihChildren h))
      · exact .inr (ihSiblings h)

theorem mem_declarations_setTypesAt {new : TypeForest α} {ns : List Namespace}
    {f : NamespaceForest α} {t : EnclosingType} (h : t ∈ (f.setTypesAt new ns).declarations) :
    t ∈ f.declarations ∨ t ∈ new.declarations := by
  induction f generalizing ns with
  | none => cases ns <;> exact .inl h
  | node number decl types children siblings ihChildren ihSiblings =>
    cases ns with
    | nil => exact .inl h
    | cons n ns =>
      simp only [declarations, List.mem_append]
      simp only [setTypesAt] at h
      split at h
      · split at h
        · simp only [declarations, List.mem_append] at h
          tauto
        · simp only [declarations, List.mem_append] at h
          have hchildren := @ihChildren ns
          tauto
      · simp only [declarations, List.mem_append] at h
        have hsiblings := @ihSiblings (n :: ns)
        tauto

/-- No node is added to a path that has one at its end. -/
theorem ensure_of_hasPath {ns : List Namespace} {f : NamespaceForest α} (h : f.HasPath ns)
    (next : Nat) : f.ensure next ns = (f, next) := by
  induction f generalizing next ns with
  | none => cases ns <;> cases h
  | node number decl types children siblings ihChildren ihSiblings =>
    cases ns with
    | nil => rfl
    | cons n ns =>
      simp only [HasPath] at h
      simp only [ensure]
      split
      · rename_i hid
        rw [if_pos hid] at h
        rcases h with rfl | h
        · cases children <;> rfl
        · rw [ihChildren h next]
      · rename_i hid
        rw [if_neg hid] at h
        rw [ihSiblings h next]

theorem HasPath.ensure {ns : List Namespace} {f : NamespaceForest α} (h : f.HasPath ns)
    (next : Nat) (us : List Namespace) : (f.ensure next us).1.HasPath ns := by
  induction f generalizing next ns us with
  | none => cases ns <;> cases h
  | node number decl types children siblings ihChildren ihSiblings =>
    cases ns with
    | nil => cases h
    | cons n ns =>
      cases us with
      | nil => exact h
      | cons u us =>
        simp only [HasPath] at h
        simp only [NamespaceForest.ensure]
        by_cases hn : decl.id = n.id
        · rw [if_pos hn] at h
          split
          · rw [HasPath, if_pos hn]
            exact h.imp_right fun h => ihChildren h next us
          · rw [HasPath, if_pos hn]
            exact h
        · rw [if_neg hn] at h
          split
          · rw [HasPath, if_neg hn]
            exact h
          · rw [HasPath, if_neg hn]
            exact ihSiblings h next (u :: us)

theorem HasPath.setTypesAt {ns : List Namespace} {f : NamespaceForest α} (h : f.HasPath ns)
    (new : TypeForest α) (us : List Namespace) : (f.setTypesAt new us).HasPath ns := by
  induction f generalizing ns us with
  | none => cases ns <;> cases h
  | node number decl types children siblings ihChildren ihSiblings =>
    cases ns with
    | nil => cases h
    | cons n ns =>
      cases us with
      | nil => exact h
      | cons u us =>
        simp only [HasPath] at h
        simp only [NamespaceForest.setTypesAt]
        by_cases hn : decl.id = n.id
        · rw [if_pos hn] at h
          split
          · split
            · rw [HasPath, if_pos hn]
              exact h
            · rw [HasPath, if_pos hn]
              exact h.imp_right fun h => ihChildren h us
          · rw [HasPath, if_pos hn]
            exact h
        · rw [if_neg hn] at h
          split
          · split <;> (rw [HasPath, if_neg hn]; exact h)
          · rw [HasPath, if_neg hn]
            exact ihSiblings h (u :: us)

theorem setTypesAt_typesAt (ns : List Namespace) (f : NamespaceForest α) :
    f.setTypesAt (f.typesAt ns) ns = f := by
  induction f generalizing ns with
  | none => cases ns <;> rfl
  | node number decl types children siblings ihChildren ihSiblings =>
    cases ns with
    | nil => rfl
    | cons n ns =>
      simp only [typesAt, setTypesAt]
      split
      · split
        · rfl
        · rw [ihChildren]
      · rw [ihSiblings]

end NamespaceForest

namespace DeclarationTree

/-- The types with a node. -/
def declarations (t : DeclarationTree α) : List EnclosingType :=
  t.types.declarations ++ t.namespaces.declarations

@[simp] theorem declarations_empty (pass : Pass) :
    (empty pass : DeclarationTree α).declarations = [] := rfl

theorem mem_declarations_of_mem_typesAt {t : DeclarationTree α} {ns : List Namespace}
    {u : EnclosingType} (h : u ∈ (t.typesAt ns).declarations) : u ∈ t.declarations := by
  rw [declarations, List.mem_append]
  unfold typesAt at h
  split at h
  · exact .inl h
  · exact .inr (NamespaceForest.mem_declarations_of_mem_typesAt h)

theorem mem_declarations_setTypesAt {t : DeclarationTree α} {ns : List Namespace}
    {new : TypeForest α} {u : EnclosingType} (h : u ∈ (t.setTypesAt ns new).declarations) :
    u ∈ t.declarations ∨ u ∈ new.declarations := by
  unfold setTypesAt at h
  simp only [declarations, List.mem_append]
  split at h
  · simp only [declarations, List.mem_append] at h
    tauto
  · simp only [declarations, List.mem_append] at h
    have hnamespaces := @NamespaceForest.mem_declarations_setTypesAt α new ns t.namespaces u
    tauto

@[simp] theorem declarations_ensureNamespaces (t : DeclarationTree α) (ns : List Namespace) :
    (t.ensureNamespaces ns).declarations = t.declarations := by
  simp [ensureNamespaces, declarations]

theorem mem_declarations_ensure {t : DeclarationTree α} {c : Container} {u : EnclosingType}
    (h : u ∈ (t.ensure c).declarations) :
    u ∈ t.declarations ∨ u ∈ c.types ∧ u.isExtensible = true := by
  simp only [ensure] at h
  have hset : u ∈ ((t.ensureNamespaces c.namespaces).setTypesAt c.namespaces
      (((t.ensureNamespaces c.namespaces).typesAt c.namespaces).ensure
        (t.ensureNamespaces c.namespaces).nextType c.types).1).declarations := h
  rcases mem_declarations_setTypesAt hset with hold | hnew
  · rw [declarations_ensureNamespaces] at hold
    exact .inl hold
  · refine (TypeForest.mem_declarations_ensure hnew).imp_left fun hold => ?_
    rw [typesAt_ensureNamespaces] at hold
    exact mem_declarations_of_mem_typesAt hold

theorem mem_declarations_place {t : DeclarationTree α} {c : Container} {member : Symbol}
    {value : α} {u : EnclosingType} (h : u ∈ (t.place c member value).declarations) :
    u ∈ t.declarations := by
  rcases mem_declarations_setTypesAt h with hold | hnew
  · exact hold
  · rw [TypeForest.declarations_place] at hnew
    exact mem_declarations_of_mem_typesAt hnew

@[simp] theorem declarations_refuse (t : DeclarationTree α) (member : Symbol) :
    (t.refuse member).declarations = t.declarations := by
  unfold refuse
  split <;> rfl

/-- If all nodes are of types that can be extended, the obstacle of a container depends on the
container alone. -/
theorem obstacle?_eq {t : DeclarationTree α} {c : Container}
    (h : ∀ u ∈ t.declarations, ∀ v ∈ c.types, u.id = v.id → v.isExtensible = true) :
    t.obstacle? c = c.obstacle? :=
  TypeForest.obstacle?_eq (fun u hu => h u (mem_declarations_of_mem_typesAt hu)) 0

/-! ## Covered containers -/

/-- No node is missing on the way to a container. -/
structure Covers (t : DeclarationTree α) (c : Container) : Prop where
  hasNamespaces : t.HasNamespaces c.namespaces
  covers : (t.typesAt c.namespaces).Covers c.types

theorem setTypesAt_typesAt (t : DeclarationTree α) (ns : List Namespace) :
    t.setTypesAt ns (t.typesAt ns) = t := by
  unfold setTypesAt typesAt
  split
  · rfl
  · rw [NamespaceForest.setTypesAt_typesAt]

theorem ensureNamespaces_of_hasNamespaces {t : DeclarationTree α} {ns : List Namespace}
    (h : t.HasNamespaces ns) : t.ensureNamespaces ns = t := by
  rcases h with rfl | h
  · have hnil : t.namespaces.ensure t.nextNamespace [] = (t.namespaces, t.nextNamespace) := by
      cases t.namespaces <;> rfl
    rw [ensureNamespaces, hnil]
  · rw [ensureNamespaces, NamespaceForest.ensure_of_hasPath h]

/-- A covered container gets no further nodes. -/
theorem ensure_of_covers {t : DeclarationTree α} {c : Container} (h : t.Covers c) :
    t.ensure c = t := by
  simp only [ensure, ensureNamespaces_of_hasNamespaces h.hasNamespaces,
    TypeForest.ensure_of_covers h.covers, setTypesAt_typesAt]

theorem HasNamespaces.ensureNamespaces {t : DeclarationTree α} {ns : List Namespace}
    (h : t.HasNamespaces ns) (us : List Namespace) :
    (t.ensureNamespaces us).HasNamespaces ns :=
  h.imp_right fun h => h.ensure t.nextNamespace us

theorem HasNamespaces.setTypesAt {t : DeclarationTree α} {ns : List Namespace}
    (h : t.HasNamespaces ns) (us : List Namespace) (new : TypeForest α) :
    (t.setTypesAt us new).HasNamespaces ns := by
  unfold DeclarationTree.setTypesAt
  split
  · exact h
  · exact h.imp_right fun h => h.setTypesAt new us

theorem HasNamespaces.ensure {t : DeclarationTree α} {ns : List Namespace}
    (h : t.HasNamespaces ns) (c : Container) : (t.ensure c).HasNamespaces ns :=
  (h.ensureNamespaces c.namespaces).setTypesAt c.namespaces _

theorem covers_ensure_self (t : DeclarationTree α) (c : Container) : (t.ensure c).Covers c where
  hasNamespaces := (hasNamespaces_ensureNamespaces t c.namespaces).setTypesAt c.namespaces _
  covers := by
    rw [typesAt_ensure, if_pos rfl]
    exact TypeForest.covers_ensure_self _ _ _

theorem Covers.ensure {t : DeclarationTree α} {c : Container} (h : t.Covers c) {d : Container}
    (hagree : AgreeOnExtension c.types d.types) : (t.ensure d).Covers c where
  hasNamespaces := h.hasNamespaces.ensure d
  covers := by
    rw [typesAt_ensure]
    split
    · exact h.covers.ensure hagree t.nextType
    · exact h.covers

theorem Covers.place {t : DeclarationTree α} {c : Container} (h : t.Covers c) {d : Container}
    {ms : List (Symbol × α)} (hd : t.membersAt? d = some ms) (member : Symbol) (value : α) :
    (t.place d member value).Covers c where
  hasNamespaces := h.hasNamespaces.setTypesAt d.namespaces _
  covers := by
    have hne : t.typesAt d.namespaces ≠ .none := by
      intro hnone
      simp [membersAt?, hnone] at hd
    rw [DeclarationTree.place, typesAt_setTypesAt (hasNamespaces_of_typesAt_ne hne)]
    split
    · rename_i hids
      rw [typesAt_congr t hids]
      exact h.covers.place member value d.types
    · exact h.covers

theorem Covers.refuse {t : DeclarationTree α} {c : Container} (h : t.Covers c) (member : Symbol) :
    (t.refuse member).Covers c := by
  unfold DeclarationTree.refuse
  split
  · exact h
  · exact ⟨h.hasNamespaces, h.covers⟩

end DeclarationTree
end NativeBindings
