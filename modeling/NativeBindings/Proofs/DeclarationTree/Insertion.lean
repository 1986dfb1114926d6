import NativeBindings.Proofs.DeclarationTree.Namespaces

/-!
# Insertion into a declaration tree

The view of a tree that callers rely on is `entries`, all members with their identities, and
`membersAt?`, the members of one container. This file says what each operation does to both, and
lists everything that an insertion can do.

## Main definitions

- `Container.SamePlace` — two containers name the same namespaces and types
- `DeclarationTree.membersAt?` — the members of a container, if it has a node
- `DeclarationTree.HoldsAt` — a member stands in a container
- `DeclarationTree.Inserts` — the ways in which an insertion can end

## Main statements

- `DeclarationTree.insert_inserts` — an insertion ends in one of these ways
- `DeclarationTree.entries_place_perm` — a placed member is one more entry
-/

namespace NativeBindings

/-- Two containers lead to the same node: their identities agree, whatever else they declare. -/
def Container.SamePlace (c d : Container) : Prop :=
  c.namespaces.map (·.id) = d.namespaces.map (·.id) ∧ c.types.map (·.id) = d.types.map (·.id)

instance (c d : Container) : Decidable (c.SamePlace d) := inferInstanceAs (Decidable (_ ∧ _))

namespace DeclarationTree

variable {α : Type}

/-! ## Types of a namespace -/

/-- There is a node for a path of namespaces; the global namespace always has one. -/
def HasNamespaces (t : DeclarationTree α) (ns : List Namespace) : Prop :=
  ns = [] ∨ t.namespaces.HasPath ns

theorem typesAt_congr {ns us : List Namespace} (t : DeclarationTree α)
    (h : ns.map (·.id) = us.map (·.id)) : t.typesAt ns = t.typesAt us := by
  have hempty : ns.isEmpty = us.isEmpty := by simpa using congrArg List.isEmpty h
  simp only [typesAt, hempty, NamespaceForest.typesAt_congr t.namespaces h]

@[simp] theorem typesAt_ensureNamespaces (t : DeclarationTree α) (ns us : List Namespace) :
    (t.ensureNamespaces ns).typesAt us = t.typesAt us := by
  simp [ensureNamespaces, typesAt]

@[simp] theorem entries_ensureNamespaces (t : DeclarationTree α) (ns : List Namespace) :
    (t.ensureNamespaces ns).entries = t.entries := by
  simp [ensureNamespaces, entries]

theorem hasNamespaces_ensureNamespaces (t : DeclarationTree α) (ns : List Namespace) :
    (t.ensureNamespaces ns).HasNamespaces ns := by
  by_cases hns : ns = []
  · exact .inl hns
  · exact .inr (NamespaceForest.hasPath_ensure t.nextNamespace hns t.namespaces)

theorem hasNamespaces_of_typesAt_ne {t : DeclarationTree α} {ns : List Namespace}
    (h : t.typesAt ns ≠ .none) : t.HasNamespaces ns := by
  by_cases hns : ns = []
  · exact .inl hns
  · refine .inr (NamespaceForest.hasPath_of_typesAt_ne ?_)
    simpa [typesAt, hns] using h

theorem typesAt_setTypesAt {t : DeclarationTree α} {ns : List Namespace} (h : t.HasNamespaces ns)
    (new : TypeForest α) (us : List Namespace) :
    (t.setTypesAt ns new).typesAt us =
      if ns.map (·.id) = us.map (·.id) then new else t.typesAt us := by
  by_cases hns : ns = []
  · subst hns
    by_cases hus : us = []
    · simp [setTypesAt, typesAt, hus]
    · have hids : ([] : List Symbol) ≠ us.map (·.id) := fun e => hus (by simpa using e.symm)
      simp [setTypesAt, typesAt, hus, hids]
  · have hpath : t.namespaces.HasPath ns := h.resolve_left hns
    by_cases hus : us = []
    · simp [setTypesAt, typesAt, hns, hus]
    · simp [setTypesAt, typesAt, hns, hus, NamespaceForest.typesAt_setTypesAt new hpath]

theorem exists_entries_setTypesAt {t : DeclarationTree α} {ns : List Namespace}
    (h : t.HasNamespaces ns) :
    ∃ before after, t.entries = before ++ (t.typesAt ns).entries ++ after ∧
      ∀ new, (t.setTypesAt ns new).entries = before ++ new.entries ++ after := by
  by_cases hns : ns = []
  · exact ⟨[], t.namespaces.entries, by simp [entries, typesAt, hns], fun new => by
      simp [entries, setTypesAt, hns]⟩
  · obtain ⟨before, after, hentries, hset⟩ :=
      NamespaceForest.exists_entries_of_hasPath (h.resolve_left hns)
    refine ⟨t.types.entries ++ before, after, ?_, fun new => ?_⟩
    · simp [entries, typesAt, hns, hentries]
    · simp [entries, setTypesAt, hns, hset]

/-! ## Members of a container -/

/-- The members of a container, if it has a node. -/
def membersAt? (t : DeclarationTree α) (c : Container) : Option (List (Symbol × α)) :=
  (t.typesAt c.namespaces).membersAt? c.types

/-- A member stands in a container. -/
def HoldsAt (t : DeclarationTree α) (c : Container) (member : Symbol) : Prop :=
  ∃ ms, t.membersAt? c = some ms ∧ member ∈ ms.map (·.1)

theorem membersAt?_congr {c d : Container} (t : DeclarationTree α) (h : c.SamePlace d) :
    t.membersAt? c = t.membersAt? d := by
  unfold membersAt?
  rw [typesAt_congr t h.1, TypeForest.membersAt?_congr _ h.2]

theorem HoldsAt.congr {t : DeclarationTree α} {c d : Container} {member : Symbol}
    (h : t.HoldsAt c member) (hplace : c.SamePlace d) : t.HoldsAt d member := by
  obtain ⟨ms, hms, hmem⟩ := h
  exact ⟨ms, membersAt?_congr t hplace ▸ hms, hmem⟩

theorem types_ne_nil_of_membersAt? {t : DeclarationTree α} {c : Container}
    {ms : List (Symbol × α)} (h : t.membersAt? c = some ms) : c.types ≠ [] := by
  intro hnil
  simp [membersAt?, hnil] at h

/-- The members of a container stand together among the entries, and a new one goes behind them. -/
theorem exists_entries_of_membersAt? {t : DeclarationTree α} {c : Container}
    {ms : List (Symbol × α)} (h : t.membersAt? c = some ms) :
    ∃ before after, t.entries = before ++ ms ++ after ∧
      ∀ member value, (t.place c member value).entries =
        before ++ (ms ++ [(member, value)]) ++ after := by
  have hne : t.typesAt c.namespaces ≠ .none := by
    intro hnone
    simp [membersAt?, hnone] at h
  obtain ⟨before, after, hentries, hset⟩ :=
    exists_entries_setTypesAt (hasNamespaces_of_typesAt_ne hne)
  obtain ⟨first, last, htypes, hplace⟩ := TypeForest.exists_entries_of_membersAt? h
  -- what surrounds the members in their namespace, and what surrounds the namespace
  refine ⟨before ++ first, last ++ after, ?_, fun member value => ?_⟩
  · rw [hentries, htypes]
    simp
  · rw [place, hset, hplace]
    simp

theorem HoldsAt.mem_entries {t : DeclarationTree α} {c : Container} {member : Symbol}
    (h : t.HoldsAt c member) : member ∈ t.entries.map (·.1) := by
  obtain ⟨ms, hms, hmem⟩ := h
  obtain ⟨before, after, hentries, -⟩ := exists_entries_of_membersAt? hms
  rw [hentries]
  simp only [List.map_append, List.mem_append]
  exact .inl (.inr hmem)

/-! ## Ensured containers -/

@[simp] theorem pass_ensure (t : DeclarationTree α) (c : Container) : (t.ensure c).pass = t.pass := by
  simp only [ensure, setTypesAt, ensureNamespaces]
  split <;> rfl

@[simp] theorem refused_ensure (t : DeclarationTree α) (c : Container) :
    (t.ensure c).refused = t.refused := by
  simp only [ensure, setTypesAt, ensureNamespaces]
  split <;> rfl

theorem typesAt_ensure (t : DeclarationTree α) (c : Container) (us : List Namespace) :
    (t.ensure c).typesAt us =
      if c.namespaces.map (·.id) = us.map (·.id) then
        ((t.typesAt us).ensure t.nextType c.types).1
      else t.typesAt us := by
  have hset := typesAt_setTypesAt (hasNamespaces_ensureNamespaces t c.namespaces)
    ((t.typesAt c.namespaces).ensure t.nextType c.types).1 us
  simp only [typesAt_ensureNamespaces] at hset
  simp only [ensure, typesAt_ensureNamespaces]
  refine Eq.trans hset ?_
  split
  · rename_i hids
    rw [typesAt_congr t hids]
  · rfl

@[simp] theorem entries_ensure (t : DeclarationTree α) (c : Container) :
    (t.ensure c).entries = t.entries := by
  obtain ⟨before, after, hentries, hset⟩ :=
    exists_entries_setTypesAt (hasNamespaces_ensureNamespaces t c.namespaces)
  rw [entries_ensureNamespaces, typesAt_ensureNamespaces] at hentries
  have hnew := hset ((t.typesAt c.namespaces).ensure t.nextType c.types).1
  rw [TypeForest.entries_ensure, ← hentries] at hnew
  simp only [ensure, typesAt_ensureNamespaces]
  exact hnew

theorem membersAt?_ensure_of_some {t : DeclarationTree α} {d : Container} {ms : List (Symbol × α)}
    (c : Container) (h : t.membersAt? d = some ms) : (t.ensure c).membersAt? d = some ms := by
  unfold membersAt? at h ⊢
  rw [typesAt_ensure]
  split
  · exact TypeForest.membersAt?_ensure_of_some t.nextType c.types h
  · exact h

/-- A container without an obstacle has a node after it was ensured, with the members it had
before. -/
theorem membersAt?_ensure_self {t : DeclarationTree α} {c : Container} (hne : c.types ≠ [])
    (h : t.obstacle? c = none) : (t.ensure c).membersAt? c = some ((t.membersAt? c).getD []) := by
  unfold membersAt?
  rw [typesAt_ensure, if_pos rfl]
  exact TypeForest.membersAt?_ensure_self t.nextType hne h

theorem HoldsAt.ensure {t : DeclarationTree α} {d : Container} {member : Symbol}
    (h : t.HoldsAt d member) (c : Container) : (t.ensure c).HoldsAt d member := by
  obtain ⟨ms, hms, hmem⟩ := h
  exact ⟨ms, membersAt?_ensure_of_some c hms, hmem⟩

theorem HoldsAt.obstacle?_eq_none {t : DeclarationTree α} {c : Container} {member : Symbol}
    (h : t.HoldsAt c member) : t.obstacle? c = none := by
  obtain ⟨ms, hms, -⟩ := h
  exact TypeForest.obstacle?_eq_none_of_membersAt? hms

theorem obstacle?_eq_some {t : DeclarationTree α} {c : Container} {o : Obstacle}
    (h : t.obstacle? c = some o) :
    c.types[o.depth]? = some o.type ∧ o.type.isExtensible = false := by
  obtain ⟨-, hget, hext⟩ := TypeForest.obstacle?_eq_some h
  exact ⟨by simpa using hget, hext⟩

/-! ## Placed members -/

@[simp] theorem refused_place (t : DeclarationTree α) (c : Container) (member : Symbol) (value : α) :
    (t.place c member value).refused = t.refused := by
  unfold place setTypesAt
  split <;> rfl

@[simp] theorem pass_place (t : DeclarationTree α) (c : Container) (member : Symbol) (value : α) :
    (t.place c member value).pass = t.pass := by
  unfold place setTypesAt
  split <;> rfl

/-- A placed member is one more entry. -/
theorem entries_place_perm {t : DeclarationTree α} {c : Container} {ms : List (Symbol × α)}
    (h : t.membersAt? c = some ms) (member : Symbol) (value : α) :
    (t.place c member value).entries.Perm (t.entries ++ [(member, value)]) := by
  obtain ⟨before, after, hentries, hplace⟩ := exists_entries_of_membersAt? h
  rw [hentries, hplace, List.append_assoc, List.append_assoc, List.append_assoc, List.append_assoc]
  exact .append_left before (.append_left ms List.perm_append_comm)

theorem membersAt?_place {t : DeclarationTree α} {c : Container} {ms : List (Symbol × α)}
    (h : t.membersAt? c = some ms) (member : Symbol) (value : α) (d : Container) :
    (t.place c member value).membersAt? d =
      if c.SamePlace d then (t.membersAt? d).map (· ++ [(member, value)])
      else t.membersAt? d := by
  have hne : t.typesAt c.namespaces ≠ .none := by
    intro hnone
    simp [membersAt?, hnone] at h
  unfold membersAt? place
  rw [typesAt_setTypesAt (hasNamespaces_of_typesAt_ne hne)]
  by_cases hns : c.namespaces.map (·.id) = d.namespaces.map (·.id)
  · simp [Container.SamePlace, hns, TypeForest.membersAt?_place, typesAt_congr t hns]
  · simp [Container.SamePlace, hns]

theorem HoldsAt.place {t : DeclarationTree α} {c d : Container} {ms : List (Symbol × α)}
    {other : Symbol} (h : t.HoldsAt d other) (hc : t.membersAt? c = some ms) (member : Symbol)
    (value : α) : (t.place c member value).HoldsAt d other := by
  obtain ⟨ns, hns, hmem⟩ := h
  unfold HoldsAt
  rw [membersAt?_place hc, hns]
  split
  · refine ⟨ns ++ [(member, value)], rfl, ?_⟩
    rw [List.map_append]
    exact List.mem_append_left _ hmem
  · exact ⟨ns, rfl, hmem⟩

theorem holdsAt_place {t : DeclarationTree α} {c : Container} {ms : List (Symbol × α)}
    (h : t.membersAt? c = some ms) (member : Symbol) (value : α) :
    (t.place c member value).HoldsAt c member :=
  ⟨ms ++ [(member, value)], by simp [membersAt?_place h, h, Container.SamePlace], by simp⟩

/-! ## Refused members and pruned nodes -/

@[simp] theorem pass_refuse (t : DeclarationTree α) (member : Symbol) :
    (t.refuse member).pass = t.pass := by
  unfold refuse
  split <;> rfl

@[simp] theorem entries_refuse (t : DeclarationTree α) (member : Symbol) :
    (t.refuse member).entries = t.entries := by
  unfold refuse
  split <;> rfl

@[simp] theorem membersAt?_refuse (t : DeclarationTree α) (member : Symbol) (c : Container) :
    (t.refuse member).membersAt? c = t.membersAt? c := by
  unfold refuse
  split <;> rfl

@[simp] theorem mem_refused_refuse {t : DeclarationTree α} {member other : Symbol} :
    other ∈ (t.refuse member).refused ↔ other ∈ t.refused ∨ other = member := by
  unfold refuse
  split
  · rename_i h
    have hmem : member ∈ t.refused := by simpa using h
    exact ⟨.inl, fun h => h.elim id fun e => e ▸ hmem⟩
  · simp

theorem HoldsAt.refuse {t : DeclarationTree α} {d : Container} {other : Symbol}
    (h : t.HoldsAt d other) (member : Symbol) : (t.refuse member).HoldsAt d other := by
  simpa [HoldsAt] using h

@[simp] theorem entries_prune (t : DeclarationTree α) : t.prune.entries = t.entries := by
  simp [prune, entries]

/-- A pruned tree is empty if it has no members. -/
theorem isEmpty_prune_iff {t : DeclarationTree α} : t.prune.isEmpty = true ↔ t.entries = [] := by
  rw [isEmpty, Bool.and_eq_true, TypeForest.isNone_iff, NamespaceForest.isNone_iff, entries,
    List.append_eq_nil_iff]
  exact and_congr TypeForest.prune_eq_none_iff NamespaceForest.prune_eq_none_iff

theorem isKnown_iff {t : DeclarationTree α} {member : Symbol} :
    t.isKnown member = true ↔ member ∈ t.refused ∨ member ∈ t.entries.map (·.1) := by
  simp [isKnown]

theorem HoldsAt.prune {t : DeclarationTree α} {c : Container} {member : Symbol}
    (h : t.HoldsAt c member) : t.prune.HoldsAt c member := by
  obtain ⟨ms, hms, hmem⟩ := h
  have hne : ms ≠ [] := by
    intro hnil
    simp [hnil] at hmem
  have htypes : (t.typesAt c.namespaces).prune.membersAt? c.types = some ms :=
    TypeForest.membersAt?_prune hms hne
  -- so the namespace is kept as well
  have hkept : (t.typesAt c.namespaces).prune ≠ .none := by
    intro hnone
    simp [hnone] at htypes
  refine ⟨ms, ?_, hmem⟩
  unfold membersAt?
  by_cases hns : c.namespaces = []
  · simpa [typesAt, DeclarationTree.prune, hns] using htypes
  · simp only [typesAt, DeclarationTree.prune, List.isEmpty_iff, hns, if_false] at htypes hkept ⊢
    rw [NamespaceForest.typesAt_prune hkept]
    exact htypes

/-! ## Insertion -/

variable {σ : Type}

/-- The ways in which the insertion of a member can end. -/
inductive Inserts (t : DeclarationTree α) (c : Container) (member : Symbol)
    (report : Diagnostic → σ → σ) (accept : σ → Option α × σ) (s : σ) :
    Insertion × DeclarationTree α × σ → Prop where
  /-- A type of the container can have no node. -/
  | blocked (o : Obstacle) (h : t.obstacle? c = some o) :
    Inserts t c member report accept s
      (.rejected, t.ensure c, report (obstacleDiagnostic t.pass c o) s)
  /-- The container has no type to put the member into. -/
  | untyped (h : c.types = []) :
    Inserts t c member report accept s (.rejected, t.ensure c, s)
  /-- The member is there already. -/
  | present (h : t.HoldsAt c member) :
    Inserts t c member report accept s (.duplicate, t.ensure c, s)
  /-- The member was found wrong before. -/
  | refused (habsent : ¬ t.HoldsAt c member) (h : member ∈ t.refused) :
    Inserts t c member report accept s (.rejected, t.ensure c, s)
  /-- The member is new and gets a value. -/
  | accepted (value : α) (s' : σ) (hopen : t.obstacle? c = none) (hne : c.types ≠ [])
    (habsent : ¬ t.HoldsAt c member) (hnew : member ∉ t.refused)
    (h : accept s = (some value, s')) :
    Inserts t c member report accept s (.inserted, (t.ensure c).place c member value, s')
  /-- The member is new and gets none. -/
  | declined (s' : σ) (hopen : t.obstacle? c = none) (hne : c.types ≠ [])
    (habsent : ¬ t.HoldsAt c member) (hnew : member ∉ t.refused)
    (h : accept s = (none, s')) :
    Inserts t c member report accept s (.rejected, (t.ensure c).refuse member, s')

theorem insert_inserts (t : DeclarationTree α) (c : Container) (member : Symbol)
    (report : Diagnostic → σ → σ) (accept : σ → Option α × σ) (s : σ) :
    Inserts t c member report accept s (t.insert c member report accept s) := by
  unfold insert
  cases hobstacle : t.obstacle? c with
  | some o => exact .blocked o hobstacle
  | none =>
    dsimp only
    by_cases hne : c.types = []
    · have hnone : ((t.ensure c).typesAt c.namespaces).membersAt? c.types = none := by simp [hne]
      rw [hnone]
      exact .untyped hne
    · have hsome : ((t.ensure c).typesAt c.namespaces).membersAt? c.types =
          some ((t.membersAt? c).getD []) := membersAt?_ensure_self hne hobstacle
      rw [hsome]
      -- the members of an ensured container are those it had before, if it had a node
      have hholds : ((t.membersAt? c).getD []).any (·.1 == member) = true ↔ t.HoldsAt c member := by
        cases hms : t.membersAt? c with
        | none => simp [HoldsAt, hms]
        | some ms => simp [HoldsAt, hms]
      dsimp only
      split
      · rename_i hany
        exact .present (hholds.1 hany)
      · rename_i hany
        have habsent : ¬ t.HoldsAt c member := fun h => hany (hholds.2 h)
        split
        · rename_i hrefused
          exact .refused habsent (by simpa using hrefused)
        · rename_i hrefused
          have hnew : member ∉ t.refused := by simpa using hrefused
          rcases haccept : accept s with ⟨_ | value, s'⟩
          · exact .declined s' hobstacle hne habsent hnew haccept
          · exact .accepted value s' hobstacle hne habsent hnew haccept

end DeclarationTree
end NativeBindings
