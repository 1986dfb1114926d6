import NativeBindings.Proofs.DeclarationArena.NamespaceGrowth

/-!
# Types of a growing arena

The types of a container lead on from its innermost namespace. They are found or added as the
namespaces are, up to the first missing type that cannot be extended.

## Main definitions

- `TypeForest.outcome?` — where a path of types ends
- `DeclarationArena.HoldsTypes` — the types of a forest stand in a node

## Main statements

- `DeclarationArena.exists_ensureTypes` — what becomes of the tables
-/

namespace NativeBindings

variable {α : Type}

namespace TypeForest

/-- The node at the end of a path of types that begins in a node. -/
def endOf? (node : ArenaNode) (ts : List EnclosingType) (f : TypeForest α) : Option ArenaNode :=
  if ts.isEmpty then some node else (f.numberAt? ts).map .ofType

/-- The node at the end of a path after it was added, or the type that stands in its way. -/
def outcome? (node : ArenaNode) (depth next : ℕ) (ts : List EnclosingType) (f : TypeForest α) :
    Option (Except Obstacle ArenaNode) :=
  match f.obstacle? depth ts with
  | some o => some (.error o)
  | .none => ((f.ensure next ts).1.endOf? node ts).map .ok

variable {node : ArenaNode} {depth next number : ℕ} {t type : EnclosingType}
  {ts : List EnclosingType} {members : List (Symbol × α)} {nested siblings : TypeForest α}

@[simp] theorem outcome?_nil (f : TypeForest α) : f.outcome? node depth next [] = some (.ok node) := by
  cases f <;> rfl

theorem ensure_none (next : ℕ) (ts : List EnclosingType) :
    (none : TypeForest α).ensure next ts = grow next ts := by
  cases ts <;> rfl

theorem outcome?_none_of_isExtensible (h : t.isExtensible = true) :
    (none : TypeForest α).outcome? node depth next (t :: ts) =
      (none : TypeForest α).outcome? (.ofType next) (depth + 1) (next + 1) ts := by
  have hobstacle : (none : TypeForest α).obstacle? depth (t :: ts) =
      (none : TypeForest α).obstacle? (depth + 1) ts := by
    cases ts <;> simp [obstacle?, h]
  have hend : ((none : TypeForest α).ensure next (t :: ts)).1.endOf? node (t :: ts) =
      ((none : TypeForest α).ensure (next + 1) ts).1.endOf? (.ofType next) ts := by
    rw [ensure_none, ensure_none, grow, if_pos h]
    cases ts <;> simp [endOf?, numberAt?]
  rw [outcome?, outcome?, hobstacle, hend]

theorem outcome?_none_of_not_isExtensible (h : t.isExtensible = false) :
    (none : TypeForest α).outcome? node depth next (t :: ts) = some (.error ⟨depth, t⟩) := by
  simp [outcome?, obstacle?, h]

theorem outcome?_node_of_id_eq (h : type.id = t.id) :
    (TypeForest.node number type members nested siblings).outcome? node depth next (t :: ts) =
      nested.outcome? (.ofType number) (depth + 1) next ts := by
  have hend : ((TypeForest.node number type members nested siblings).ensure next (t :: ts)).1.endOf?
      node (t :: ts) = (nested.ensure next ts).1.endOf? (.ofType number) ts := by
    rw [ensure, if_pos h]
    cases ts <;> simp [endOf?, numberAt?, h]
  rw [outcome?, outcome?, hend, obstacle?, if_pos h]

theorem outcome?_node_of_id_ne (h : type.id ≠ t.id) :
    (TypeForest.node number type members nested siblings).outcome? node depth next (t :: ts) =
      siblings.outcome? node depth next (t :: ts) := by
  have hend : ((TypeForest.node number type members nested siblings).ensure next (t :: ts)).1.endOf?
      node (t :: ts) = (siblings.ensure next (t :: ts)).1.endOf? node (t :: ts) := by
    rw [ensure, if_neg h]
    simp [endOf?, numberAt?, h]
  rw [outcome?, outcome?, hend, obstacle?, if_neg h]

end TypeForest

namespace DeclarationArena

variable {a : DeclarationArena α} {node : ArenaNode}

theorem setTypesOf_self {types : List (Symbol × ℕ)} (h : a.typesOf? node = some types) :
    a.setTypesOf types node = a := by
  cases node with
  | ofNamespace p =>
    obtain ⟨cell, hcell, rfl⟩ := Option.map_eq_some_iff.1 h
    rw [setTypesOf, modify_eq_self hcell rfl]
  | ofType p =>
    obtain ⟨cell, hcell, rfl⟩ := Option.map_eq_some_iff.1 h
    rw [setTypesOf, modify_eq_self hcell rfl]

theorem getElem?_types_setTypesOf_of_ne {i : ℕ} (h : node ≠ .ofType i) (types : List (Symbol × ℕ)) :
    (a.setTypesOf types node).types[i]? = a.types[i]? := by
  cases node with
  | ofNamespace p => rfl
  | ofType p => exact List.getElem?_modify_ne _ _ fun e => h (e ▸ rfl)

theorem getElem?_types_setTypesOf_self {p : ℕ} {cell : TypeCell α} (h : a.types[p]? = some cell)
    (types : List (Symbol × ℕ)) :
    (a.setTypesOf types (.ofType p)).types[p]? = some { cell with nested := types } := by
  rw [setTypesOf, List.getElem?_modify_eq, h]
  rfl

@[simp] theorem length_types_setTypesOf (types : List (Symbol × ℕ)) (node : ArenaNode) :
    (a.setTypesOf types node).types.length = a.types.length := by
  cases node with
  | ofNamespace p => rfl
  | ofType p => exact List.length_modify _ _ _

@[simp] theorem length_addType (a : DeclarationArena α) (t : EnclosingType) :
    (a.addType t).types.length = a.types.length + 1 :=
  List.length_append

theorem getElem?_addType (a : DeclarationArena α) (t : EnclosingType) :
    (a.addType t).types[a.types.length]? = some ⟨t, [], []⟩ :=
  List.getElem?_concat_length

theorem ensureTypes_of_lookup_eq_some {depth number : ℕ} {types : List (Symbol × ℕ)}
    {t : EnclosingType} {ts : List EnclosingType} (htypes : a.typesOf? node = some types)
    (h : types.lookup t.id = some number) :
    a.ensureTypes node depth (t :: ts) = a.ensureTypes (.ofType number) (depth + 1) ts := by
  rw [ensureTypes, htypes]
  simp only [Option.bind_eq_bind, Option.bind_some, h]

/-- The types of a forest stand in the table, the outermost ones in a node and behind other types of
it. -/
structure HoldsTypes (a : DeclarationArena α) (node : ArenaNode) (before : List (Symbol × ℕ))
    (f : TypeForest α) : Prop where
  typesOf?_eq : a.typesOf? node = some (before ++ f.childMap)
  getElem?_eq : ∀ x ∈ f.cells, a.types[x.1]? = some x.2
  nodup : f.numbers.Nodup
  ne_ofType : ∀ i ∈ f.numbers, node ≠ .ofType i

namespace HoldsTypes

variable {number next : ℕ} {before : List (Symbol × ℕ)} {type : EnclosingType}
  {members : List (Symbol × α)} {inner others : TypeForest α}

theorem setTypesOf_self {f : TypeForest α} (h : a.HoldsTypes node before f) :
    a.setTypesOf (before ++ f.childMap) node = a :=
  DeclarationArena.setTypesOf_self h.typesOf?_eq

/-- A table to which nothing is added. -/
theorem updates_self {f : TypeForest α} (h : a.HoldsTypes node before f) :
    Updates (a.setTypesOf (before ++ f.childMap) node).types a.types f.numbers f.cells
      a.types.length := by
  rw [h.setTypesOf_self]
  exact ⟨rfl, h.getElem?_eq, fun _ _ _ => rfl⟩

theorem lt_length {f : TypeForest α} (h : a.HoldsTypes node before f) {i : ℕ}
    (hi : i ∈ f.numbers) : i < a.types.length := by
  rw [← f.map_fst_cells] at hi
  obtain ⟨x, hx, rfl⟩ := List.mem_map.1 hi
  exact (List.getElem?_eq_some_iff.1 (h.getElem?_eq x hx)).1

theorem getElem?_number (h : a.HoldsTypes node before (.node number type members inner others)) :
    a.types[number]? = some ⟨type, inner.childMap, members⟩ :=
  h.getElem?_eq _ List.mem_cons_self

/-- The first type holds its nested types, and the node the others. -/
theorem nested (h : a.HoldsTypes node before (.node number type members inner others)) :
    a.HoldsTypes (.ofType number) [] inner where
  typesOf?_eq := by rw [typesOf?, h.getElem?_number, Option.map_some, List.nil_append]
  getElem?_eq := fun x hx =>
    h.getElem?_eq x (List.mem_cons_of_mem _ (List.mem_append_left _ hx))
  nodup := (List.nodup_cons.1 h.nodup).2.sublist (List.sublist_append_left _ _)
  ne_ofType := by
    rintro i hi ⟨rfl⟩
    exact (List.nodup_cons.1 h.nodup).1 (List.mem_append_left _ hi)

theorem siblings (h : a.HoldsTypes node before (.node number type members inner others)) :
    a.HoldsTypes node (before ++ [(type.id, number)]) others where
  typesOf?_eq := by rw [h.typesOf?_eq, TypeForest.childMap, List.append_cons]
  getElem?_eq := fun x hx =>
    h.getElem?_eq x (List.mem_cons_of_mem _ (List.mem_append_right _ hx))
  nodup := (List.nodup_cons.1 h.nodup).2.sublist (List.sublist_append_right _ _)
  ne_ofType := fun i hi =>
    h.ne_ofType i (List.mem_cons_of_mem _ (List.mem_append_right _ hi))

/-- Types that are added in the first one. -/
theorem updates_of_nested {grown : TypeForest α} {table : List (TypeCell α)}
    (h : a.HoldsTypes node before (.node number type members inner others))
    (hupdates : Updates (a.setTypesOf grown.childMap (.ofType number)).types table inner.numbers
      grown.cells next) :
    Updates (a.setTypesOf
        (before ++ (TypeForest.node number type members grown others).childMap) node).types
      table (TypeForest.node number type members inner others).numbers
      (TypeForest.node number type members grown others).cells next := by
  have hself := h.setTypesOf_self
  rw [TypeForest.childMap] at hself ⊢
  have hnodup := h.nodup
  rw [TypeForest.numbers, List.nodup_cons, List.mem_append, not_or] at hnodup
  rw [hself]
  -- outside of the nested types, only the type that they stand in changes
  have hother : ∀ i < a.types.length, i ∉ inner.numbers → number ≠ i →
      table[i]? = a.types[i]? := by
    intro i hi hnested hne
    rw [hupdates.getElem?_of_notMem i (by rwa [length_types_setTypesOf]) hnested,
      getElem?_types_setTypesOf_of_ne fun e => hne (ArenaNode.ofType.inj e)]
  refine ⟨hupdates.length_eq, ?_, fun i hi hnumbers => ?_⟩
  · simp only [TypeForest.cells, List.forall_mem_cons, List.forall_mem_append]
    refine ⟨?_, hupdates.getElem?_eq, fun x hx => ?_⟩
    · rw [hupdates.getElem?_of_notMem number _ hnodup.1.1,
        getElem?_types_setTypesOf_self h.getElem?_number]
      rw [length_types_setTypesOf]
      exact h.lt_length List.mem_cons_self
    · have hx' := TypeForest.mem_numbers_of_mem_cells hx
      rw [hother x.1 (h.siblings.lt_length hx') ?_ (fun e => hnodup.1.2 (e ▸ hx'))]
      · exact h.siblings.getElem?_eq x hx
      · exact fun hnested => List.disjoint_of_nodup_append hnodup.2 hnested hx'
  · simp only [TypeForest.numbers, List.mem_cons, List.mem_append, not_or] at hnumbers
    exact hother i hi hnumbers.2.1 (Ne.symm hnumbers.1)

/-- Types that are added behind or in the other ones. -/
theorem updates_of_siblings {grown : TypeForest α} {table : List (TypeCell α)}
    (h : a.HoldsTypes node before (.node number type members inner others))
    (hupdates : Updates
      (a.setTypesOf (before ++ [(type.id, number)] ++ grown.childMap) node).types table
      others.numbers grown.cells next) :
    Updates (a.setTypesOf
        (before ++ (TypeForest.node number type members inner grown).childMap) node).types
      table (TypeForest.node number type members inner others).numbers
      (TypeForest.node number type members inner grown).cells next := by
  rw [← List.append_cons] at hupdates
  have hnodup := h.nodup
  simp only [TypeForest.numbers, List.nodup_cons, List.mem_append, not_or] at hnodup
  have hother : ∀ i < a.types.length, i ∉ others.numbers → node ≠ .ofType i →
      table[i]? = a.types[i]? := by
    intro i hi hsibling hne
    rw [hupdates.getElem?_of_notMem i (by rwa [length_types_setTypesOf]) hsibling,
      getElem?_types_setTypesOf_of_ne hne]
  refine ⟨hupdates.length_eq, ?_, fun i hi hnumbers => hupdates.getElem?_of_notMem i hi fun hi' => ?_⟩
  · simp only [TypeForest.cells, List.forall_mem_cons, List.forall_mem_append]
    refine ⟨?_, fun x hx => ?_, hupdates.getElem?_eq⟩
    · rw [hother number (h.lt_length List.mem_cons_self) hnodup.1.2
        (h.ne_ofType number List.mem_cons_self)]
      exact h.getElem?_number
    · have hx' := TypeForest.mem_numbers_of_mem_cells hx
      rw [hother x.1 (h.nested.lt_length hx') ?_
        (h.ne_ofType x.1 (List.mem_cons_of_mem _ (List.mem_append_left _ hx')))]
      · exact h.nested.getElem?_eq x hx
      · exact fun hsibling => List.disjoint_of_nodup_append hnodup.2 hx' hsibling
  · exact hnumbers (List.mem_cons_of_mem _ (List.mem_append_right _ hi'))

end HoldsTypes

theorem holdsTypes_none {types : List (Symbol × ℕ)} (h : a.typesOf? node = some types) :
    a.HoldsTypes node types .none where
  typesOf?_eq := by rw [h, TypeForest.childMap, List.append_nil]
  getElem?_eq := List.forall_mem_nil _
  nodup := List.nodup_nil
  ne_ofType := List.forall_mem_nil _

/-- New types are added in a node that does not have the first of them. -/
theorem exists_ensureTypes_of_lookup_eq_none (depth : ℕ) (ts : List EnclosingType)
    {types : List (Symbol × ℕ)} (htypes : a.typesOf? node = some types)
    (hnone : ∀ t ∈ ts.head?, types.lookup t.id = none) :
    let grown : TypeForest α × ℕ := TypeForest.grow a.types.length ts
    ∃ r table, a.ensureTypes node depth ts =
        some (r, { a.setTypesOf (types ++ grown.1.childMap) node with types := table }) ∧
      (TypeForest.none : TypeForest α).outcome? node depth a.types.length ts = some r ∧
      Updates (a.setTypesOf (types ++ grown.1.childMap) node).types table [] grown.1.cells grown.2 := by
  induction ts generalizing a node types depth with
  | nil =>
    have hholds := holdsTypes_none htypes
    refine ⟨.ok node, a.types, ?_, TypeForest.outcome?_nil _, hholds.updates_self⟩
    rw [TypeForest.grow, hholds.setTypesOf_self]
    rfl
  | cons t ts ih =>
    cases hext : t.isExtensible with
    | false =>
      have hholds := holdsTypes_none htypes
      have hgrow : TypeForest.grow a.types.length (t :: ts) =
          ((.none, a.types.length) : TypeForest α × ℕ) := by
        rw [TypeForest.grow, hext, if_neg Bool.false_ne_true]
      rw [hgrow]
      refine ⟨.error ⟨depth, t⟩, a.types, ?_, TypeForest.outcome?_none_of_not_isExtensible hext,
        hholds.updates_self⟩
      rw [ensureTypes, htypes, hholds.setTypesOf_self]
      simp [hnone t rfl, hext]
    | true =>
      let number := a.types.length
      let entered := a.setTypesOf (types ++ [(t.id, number)]) node
      have hlength : entered.types.length = number := length_types_setTypesOf _ _
      have hnew := entered.getElem?_addType t
      rw [hlength] at hnew
      have htypes' : (entered.addType t).typesOf? (.ofType number) = some [] := by
        rw [typesOf?, hnew, Option.map_some]
      obtain ⟨r, table, hrun, houtcome, hupdates⟩ := ih (depth + 1) htypes' fun _ _ => rfl
      rw [length_addType, hlength] at houtcome hupdates hrun
      rw [TypeForest.grow, if_pos hext, TypeForest.outcome?_none_of_isExtensible hext]
      refine ⟨r, table, ?_, houtcome, ?_⟩
      · rw [ensureTypes, htypes]
        simp only [Option.bind_eq_bind, Option.bind_some, hnone t rfl, hext, if_true]
        exact hrun
      · rw [TypeForest.cells, TypeForest.cells, List.append_nil]
        exact hupdates.of_concat hlength.symm

/-- The types of a path are found where they are, and added where they are missing. -/
theorem exists_ensureTypes (f : TypeForest α) (depth : ℕ) (ts : List EnclosingType)
    {before : List (Symbol × ℕ)} (h : a.HoldsTypes node before f)
    (hbefore : ∀ t ∈ ts.head?, before.lookup t.id = none) :
    let grown := f.ensure a.types.length ts
    ∃ r table, a.ensureTypes node depth ts =
        some (r, { a.setTypesOf (before ++ grown.1.childMap) node with types := table }) ∧
      f.outcome? node depth a.types.length ts = some r ∧
      Updates (a.setTypesOf (before ++ grown.1.childMap) node).types table f.numbers grown.1.cells
        grown.2 := by
  induction f generalizing node depth ts before with
  | none =>
    have htypes := h.typesOf?_eq
    rw [TypeForest.childMap, List.append_nil] at htypes
    rw [TypeForest.ensure_none]
    exact exists_ensureTypes_of_lookup_eq_none depth ts htypes hbefore
  | node number type members nested siblings ihNested ihSiblings =>
    cases ts with
    | nil =>
      refine ⟨.ok node, a.types, ?_, TypeForest.outcome?_nil _, h.updates_self⟩
      rw [TypeForest.ensure, h.setTypesOf_self]
      rfl
    | cons t ts =>
      have hnone : before.lookup t.id = none := hbefore t rfl
      by_cases hid : type.id = t.id
      · obtain ⟨r, table, hrun, houtcome, hupdates⟩ :=
          ihNested (depth + 1) ts h.nested fun _ _ => rfl
        have hfound : (before ++ (TypeForest.node number type members nested siblings).childMap).lookup
            t.id = some number := by
          simp [List.lookup_append, hnone, TypeForest.childMap, hid]
        rw [TypeForest.outcome?_node_of_id_eq hid, TypeForest.ensure, if_pos hid]
        refine ⟨r, table, ?_, houtcome, h.updates_of_nested hupdates⟩
        have hself := h.setTypesOf_self
        rw [TypeForest.childMap] at hself ⊢
        rw [ensureTypes_of_lookup_eq_some h.typesOf?_eq hfound, hself]
        exact hrun
      · have hbefore' : ∀ u ∈ (t :: ts).head?,
            (before ++ [(type.id, number)]).lookup u.id = none := by
          intro u hu
          obtain rfl : t = u := Option.some.inj hu
          simp [List.lookup_append, hnone, Ne.symm hid]
        obtain ⟨r, table, hrun, houtcome, hupdates⟩ :=
          ihSiblings depth (t :: ts) h.siblings hbefore'
        rw [TypeForest.outcome?_node_of_id_ne hid, TypeForest.ensure, if_neg hid]
        refine ⟨r, table, ?_, houtcome, h.updates_of_siblings hupdates⟩
        rw [TypeForest.childMap, List.append_cons]
        exact hrun

end DeclarationArena
end NativeBindings
