import NativeBindings.Proofs.DeclarationTree.History
import NativeBindings.Proofs.DeclarationTree.Nodes

/-!
# Locations in a declaration tree

Every entry of a tree stands below a path of nodes. These are the namespaces and types with which
the member was inserted, as long as all declarations of a namespace or a type are the same. In each
container the entries stand in the order of their insertion.

## Main definitions

- `DeclarationTree.located` — the entries of a tree with the nodes above them
- `DeclarationTree.Housed` — every entry stands where its member belongs

## Main statements

- `DeclarationTree.Housed.runAll` — runs put their members where they belong, in order
-/

namespace NativeBindings

variable {α σ : Type}

theorem map_snd_map {β γ : Type} (c : γ) (xs : List β) : (xs.map (c, ·)).map (·.2) = xs := by
  rw [List.map_map]
  exact List.map_id xs

/-- Namespaces with the same identity have the same name. -/
def HaveUniformNames (ns : List Namespace) : Prop :=
  ∀ n ∈ ns, ∀ n' ∈ ns, n.id = n'.id → n.name = n'.name

instance (ns : List Namespace) : Decidable (HaveUniformNames ns) :=
  inferInstanceAs (Decidable (∀ n ∈ ns, ∀ n' ∈ ns, n.id = n'.id → n.name = n'.name))

theorem HaveUniformNames.eq {ns : List Namespace} (h : HaveUniformNames ns) {n n' : Namespace}
    (hn : n ∈ ns) (hn' : n' ∈ ns) (hid : n.id = n'.id) : n = n' := by
  have hname := h n hn n' hn' hid
  cases n
  cases n'
  simp_all

namespace TypeForest

/-- The entries of all nodes, with the types above them below those of a path. -/
def located (path : List EnclosingType) : TypeForest α → List (List EnclosingType × Symbol × α)
  | none => []
  | node _ type members nested siblings =>
    members.map (path ++ [type], ·) ++ nested.located (path ++ [type]) ++ siblings.located path

theorem map_snd_located (path : List EnclosingType) (f : TypeForest α) :
    (f.located path).map (·.2) = f.entries := by
  induction f generalizing path with
  | none => rfl
  | node number type members nested siblings ihNested ihSiblings =>
    rw [located, List.map_append, List.map_append, map_snd_map, ihNested, ihSiblings, entries]

theorem located_eq_nil {f : TypeForest α} (h : f.entries = []) (path : List EnclosingType) :
    f.located path = [] := by
  rw [← map_snd_located path f, List.map_eq_nil_iff] at h
  exact h

@[simp] theorem located_ensure (next : Nat) (ts path : List EnclosingType) (f : TypeForest α) :
    (f.ensure next ts).1.located path = f.located path := by
  induction f generalizing next ts path with
  | none => exact located_eq_nil (by rw [entries_ensure]; rfl) path
  | node number type members nested siblings ihNested ihSiblings =>
    cases ts with
    | nil => rfl
    | cons t ts =>
      simp only [ensure]
      split
      · rw [located, ihNested, located]
      · rw [located, ihSiblings, located]

@[simp] theorem located_prune (path : List EnclosingType) (f : TypeForest α) :
    f.prune.located path = f.located path := by
  induction f generalizing path with
  | none => rfl
  | node number type members nested siblings ihNested ihSiblings =>
    simp only [prune]
    split
    · rename_i h
      obtain ⟨rfl, hnested⟩ : members = [] ∧ nested.prune = none := by
        simpa [isNone_iff] using h
      have hnil : nested.located (path ++ [type]) = [] := by rw [← ihNested, hnested]; rfl
      rw [ihSiblings, located, hnil]
      rfl
    · rw [located, ihNested, ihSiblings, located]

theorem declarations_prune_subset (f : TypeForest α) : f.prune.declarations ⊆ f.declarations := by
  induction f with
  | none => exact List.Subset.refl _
  | node number type members nested siblings ihNested ihSiblings =>
    simp only [prune]
    split
    · exact fun u hu => List.mem_cons_of_mem _ (List.mem_append_right _ (ihSiblings hu))
    · exact List.cons_subset_cons _ (List.append_subset.2
        ⟨fun u hu => List.mem_append_left _ (ihNested hu),
          fun u hu => List.mem_append_right _ (ihSiblings hu)⟩)

/-- The members of a node are located at its path, if the types of the path are those of the
nodes. -/
theorem exists_located_of_membersAt? {ts : List EnclosingType} {f : TypeForest α}
    {ms : List (Symbol × α)} (h : f.membersAt? ts = some ms)
    (hsame : ∀ u ∈ f.declarations, ∀ v ∈ ts, u.id = v.id → u = v) (path : List EnclosingType) :
    ∃ before after, f.located path = before ++ ms.map (path ++ ts, ·) ++ after ∧
      ∀ member value, (f.place member value ts).located path =
        before ++ (ms ++ [(member, value)]).map (path ++ ts, ·) ++ after := by
  induction f generalizing path ts with
  | none => simp at h
  | node number type members nested siblings ihNested ihSiblings =>
    cases ts with
    | nil => simp at h
    | cons t ts =>
      by_cases hid : type.id = t.id
      · obtain rfl : type = t := hsame type List.mem_cons_self t List.mem_cons_self hid
        by_cases hts : ts = []
        · subst hts
          obtain rfl : members = ms := by simpa [membersAt?] using h
          refine ⟨[], nested.located (path ++ [type]) ++ siblings.located path, ?_, ?_⟩
          · rw [located, List.nil_append, List.append_assoc]
          · intro member value
            simp [place, located]
        · have hnested : nested.membersAt? ts = some ms := by simpa [membersAt?, hts] using h
          have hsame' : ∀ u ∈ nested.declarations, ∀ v ∈ ts, u.id = v.id → u = v :=
            fun u hu v hv => hsame u (List.mem_cons_of_mem _ (List.mem_append_left _ hu)) v
              (List.mem_cons_of_mem _ hv)
          obtain ⟨before, after, hlocated, hplace⟩ := ihNested hnested hsame' (path ++ [type])
          have hpath : path ++ [type] ++ ts = path ++ type :: ts := List.append_assoc _ _ _
          rw [hpath] at hlocated hplace
          refine ⟨members.map (path ++ [type], ·) ++ before, after ++ siblings.located path, ?_, ?_⟩
          · rw [located, hlocated]
            simp only [List.append_assoc]
          · intro member value
            simp [place, hts, located, hplace]
      · have hsiblings : siblings.membersAt? (t :: ts) = some ms := by
          simpa [membersAt?, hid] using h
        have hsame' : ∀ u ∈ siblings.declarations, ∀ v ∈ t :: ts, u.id = v.id → u = v :=
          fun u hu => hsame u (List.mem_cons_of_mem _ (List.mem_append_right _ hu))
        obtain ⟨before, after, hlocated, hplace⟩ := ihSiblings hsiblings hsame' path
        refine ⟨members.map (path ++ [type], ·) ++ nested.located (path ++ [type]) ++ before, after,
          ?_, ?_⟩
        · rw [located, hlocated]
          simp only [List.append_assoc]
        · intro member value
          simp [place, hid, located, hplace]

end TypeForest

namespace NamespaceForest

/-- The namespaces of all nodes. -/
def namespaces : NamespaceForest α → List Namespace
  | none => []
  | node _ decl _ children siblings => decl :: (children.namespaces ++ siblings.namespaces)

/-- The entries of the types of a namespace, with their containers. -/
def locatedIn (path : List Namespace) (f : TypeForest α) : List (Container × Symbol × α) :=
  (f.located []).map fun (ts, e) => (⟨path, ts⟩, e)

/-- The entries of all nodes, with the namespaces above them below those of a path. -/
def located (path : List Namespace) : NamespaceForest α → List (Container × Symbol × α)
  | none => []
  | node _ decl types children siblings =>
    locatedIn (path ++ [decl]) types ++ children.located (path ++ [decl]) ++ siblings.located path

theorem map_snd_locatedIn (path : List Namespace) (f : TypeForest α) :
    (locatedIn path f).map (·.2) = f.entries := by
  rw [← TypeForest.map_snd_located [] f, locatedIn, List.map_map]
  rfl

theorem map_snd_located (path : List Namespace) (f : NamespaceForest α) :
    (f.located path).map (·.2) = f.entries := by
  induction f generalizing path with
  | none => rfl
  | node number decl types children siblings ihChildren ihSiblings =>
    rw [located, List.map_append, List.map_append, map_snd_locatedIn, ihChildren, ihSiblings,
      entries]

theorem located_eq_nil {f : NamespaceForest α} (h : f.entries = []) (path : List Namespace) :
    f.located path = [] := by
  rw [← map_snd_located path f, List.map_eq_nil_iff] at h
  exact h

@[simp] theorem located_ensure (next : Nat) (ns path : List Namespace) (f : NamespaceForest α) :
    (f.ensure next ns).1.located path = f.located path := by
  induction f generalizing next ns path with
  | none => exact located_eq_nil (by rw [entries_ensure]; rfl) path
  | node number decl types children siblings ihChildren ihSiblings =>
    cases ns with
    | nil => rfl
    | cons n ns =>
      simp only [ensure]
      split
      · rw [located, ihChildren, located]
      · rw [located, ihSiblings, located]

@[simp] theorem located_prune (path : List Namespace) (f : NamespaceForest α) :
    f.prune.located path = f.located path := by
  induction f generalizing path with
  | none => rfl
  | node number decl types children siblings ihChildren ihSiblings =>
    have htypes : locatedIn (path ++ [decl]) types.prune = locatedIn (path ++ [decl]) types := by
      rw [locatedIn, TypeForest.located_prune, locatedIn]
    simp only [prune]
    split
    · rename_i h
      obtain ⟨hnone, hnone'⟩ : types.prune = .none ∧ children.prune = none := by
        simpa [isNone_iff, TypeForest.isNone_iff] using h
      have hnil : locatedIn (path ++ [decl]) types = [] := by rw [← htypes, hnone]; rfl
      have hnil' : children.located (path ++ [decl]) = [] := by rw [← ihChildren, hnone']; rfl
      rw [ihSiblings, located, hnil, hnil']
      rfl
    · rw [located, htypes, ihChildren, ihSiblings, located]

theorem mem_namespaces_grow {next : Nat} {ns : List Namespace} {n : Namespace}
    (h : n ∈ (grow next ns : NamespaceForest α × Nat).1.namespaces) : n ∈ ns := by
  induction ns generalizing next with
  | nil => cases h
  | cons m ns ih =>
    simp only [grow, namespaces, List.append_nil, List.mem_cons] at h
    rcases h with rfl | h
    · exact List.mem_cons_self
    · exact List.mem_cons_of_mem m (ih h)

theorem mem_namespaces_ensure {next : Nat} {ns : List Namespace} {f : NamespaceForest α}
    {n : Namespace} (h : n ∈ (f.ensure next ns).1.namespaces) : n ∈ f.namespaces ∨ n ∈ ns := by
  induction f generalizing next ns with
  | none =>
    cases ns with
    | nil => cases h
    | cons m ns => exact .inr (mem_namespaces_grow h)
  | node number decl types children siblings ihChildren ihSiblings =>
    cases ns with
    | nil => exact .inl h
    | cons m ns =>
      simp only [ensure] at h
      split at h
      · simp only [namespaces, List.mem_cons, List.mem_append] at h ⊢
        rcases h with h | h | h
        · exact .inl (.inl h)
        · exact (ihChildren h).imp (fun h => .inr (.inl h)) .inr
        · exact .inl (.inr (.inr h))
      · simp only [namespaces, List.mem_cons, List.mem_append] at h ⊢
        rcases h with h | h | h
        · exact .inl (.inl h)
        · exact .inl (.inr (.inl h))
        · exact (ihSiblings h).imp (fun h => .inr (.inr h)) List.mem_cons.1

@[simp] theorem namespaces_setTypesAt (new : TypeForest α) (ns : List Namespace)
    (f : NamespaceForest α) : (f.setTypesAt new ns).namespaces = f.namespaces := by
  induction f generalizing ns with
  | none => cases ns <;> rfl
  | node number decl types children siblings ihChildren ihSiblings =>
    cases ns with
    | nil => rfl
    | cons n ns =>
      simp only [setTypesAt]
      split
      · split
        · rfl
        · rw [namespaces, ihChildren, namespaces]
      · rw [namespaces, ihSiblings, namespaces]

theorem prune_subset (f : NamespaceForest α) :
    f.prune.namespaces ⊆ f.namespaces ∧ f.prune.declarations ⊆ f.declarations := by
  induction f with
  | none => exact ⟨List.Subset.refl _, List.Subset.refl _⟩
  | node number decl types children siblings ihChildren ihSiblings =>
    simp only [prune]
    split
    · refine ⟨fun n hn => ?_, fun u hu => ?_⟩
      · exact List.mem_cons_of_mem _ (List.mem_append_right _ (ihSiblings.1 hn))
      · exact List.mem_append_right _ (ihSiblings.2 hu)
    · refine ⟨List.cons_subset_cons _ ?_, ?_⟩
      · exact List.append_subset.2 ⟨fun n hn => List.mem_append_left _ (ihChildren.1 hn),
          fun n hn => List.mem_append_right _ (ihSiblings.1 hn)⟩
      · intro u hu
        simp only [declarations, List.mem_append] at hu ⊢
        exact hu.imp (Or.imp (fun h => types.declarations_prune_subset h) fun h => ihChildren.2 h)
          fun h => ihSiblings.2 h

/-- The entries of a namespace are located at its path, if the namespaces of the path are those of
the nodes. -/
theorem exists_located_of_hasPath {ns : List Namespace} {f : NamespaceForest α} (h : f.HasPath ns)
    (hsame : ∀ n ∈ f.namespaces, ∀ m ∈ ns, n.id = m.id → n = m) (path : List Namespace) :
    ∃ before after, f.located path = before ++ locatedIn (path ++ ns) (f.typesAt ns) ++ after ∧
      ∀ new, (f.setTypesAt new ns).located path =
        before ++ locatedIn (path ++ ns) new ++ after := by
  induction f generalizing path ns with
  | none => cases ns <;> cases h
  | node number decl types children siblings ihChildren ihSiblings =>
    cases ns with
    | nil => cases h
    | cons n ns =>
      simp only [HasPath] at h
      by_cases hid : decl.id = n.id
      · obtain rfl : decl = n := hsame decl List.mem_cons_self n List.mem_cons_self hid
        by_cases hns : ns = []
        · subst hns
          refine ⟨[], children.located (path ++ [decl]) ++ siblings.located path, ?_, ?_⟩
          · simp [located, typesAt]
          · intro new
            simp [located, setTypesAt]
        · have hchildren : children.HasPath ns := by simpa [hns] using h
          have hsame' : ∀ n ∈ children.namespaces, ∀ m ∈ ns, n.id = m.id → n = m :=
            fun n hn m hm => hsame n (List.mem_cons_of_mem _ (List.mem_append_left _ hn)) m
              (List.mem_cons_of_mem _ hm)
          obtain ⟨before, after, hlocated, hset⟩ := ihChildren hchildren hsame' (path ++ [decl])
          have hpath : path ++ [decl] ++ ns = path ++ decl :: ns := List.append_assoc _ _ _
          rw [hpath] at hlocated hset
          refine ⟨locatedIn (path ++ [decl]) types ++ before, after ++ siblings.located path, ?_,
            ?_⟩
          · simp [located, typesAt, hns, hlocated]
          · intro new
            simp [located, setTypesAt, hns, hset]
      · have hsiblings : siblings.HasPath (n :: ns) := by simpa [hid] using h
        have hsame' : ∀ m ∈ siblings.namespaces, ∀ m' ∈ n :: ns, m.id = m'.id → m = m' :=
          fun m hm => hsame m (List.mem_cons_of_mem _ (List.mem_append_right _ hm))
        obtain ⟨before, after, hlocated, hset⟩ := ihSiblings hsiblings hsame' path
        refine ⟨locatedIn (path ++ [decl]) types ++ children.located (path ++ [decl]) ++ before,
          after, ?_, ?_⟩
        · simp [located, typesAt, hid, hlocated]
        · intro new
          simp [located, setTypesAt, hid, hset]

end NamespaceForest

namespace DeclarationTree

/-- The entries with the nodes above them, in the order in which they are printed. -/
def located (t : DeclarationTree α) : List (Container × Symbol × α) :=
  NamespaceForest.locatedIn [] t.types ++ t.namespaces.located []

theorem map_snd_located (t : DeclarationTree α) : t.located.map (·.2) = t.entries := by
  rw [located, List.map_append, NamespaceForest.map_snd_locatedIn, NamespaceForest.map_snd_located,
    entries]

theorem located_setTypesAt {t : DeclarationTree α} {ns : List Namespace} (h : t.HasNamespaces ns)
    (hsame : ∀ n ∈ t.namespaces.namespaces, ∀ m ∈ ns, n.id = m.id → n = m) :
    ∃ before after,
      t.located = before ++ NamespaceForest.locatedIn ns (t.typesAt ns) ++ after ∧
      ∀ new, (t.setTypesAt ns new).located =
        before ++ NamespaceForest.locatedIn ns new ++ after := by
  by_cases hns : ns = []
  · subst hns
    exact ⟨[], t.namespaces.located [], by simp [located, typesAt], fun new => by
      simp [located, setTypesAt]⟩
  · obtain ⟨before, after, hlocated, hset⟩ :=
      NamespaceForest.exists_located_of_hasPath (h.resolve_left hns) hsame []
    rw [List.nil_append] at hlocated hset
    refine ⟨NamespaceForest.locatedIn [] t.types ++ before, after, ?_, fun new => ?_⟩
    · simp [located, typesAt, hns, hlocated]
    · simp [located, setTypesAt, hns, hset]

@[simp] theorem located_ensureNamespaces (t : DeclarationTree α) (ns : List Namespace) :
    (t.ensureNamespaces ns).located = t.located := by
  simp [ensureNamespaces, located]

@[simp] theorem located_prune (t : DeclarationTree α) : t.prune.located = t.located := by
  simp [prune, located, NamespaceForest.locatedIn]

@[simp] theorem located_refuse (t : DeclarationTree α) (member : Symbol) :
    (t.refuse member).located = t.located := by
  unfold refuse
  split <;> rfl

/-- The namespaces with a node. -/
def namespaceDeclarations (t : DeclarationTree α) : List Namespace := t.namespaces.namespaces

@[simp] theorem namespaceDeclarations_refuse (t : DeclarationTree α) (member : Symbol) :
    (t.refuse member).namespaceDeclarations = t.namespaceDeclarations := by
  unfold refuse
  split <;> rfl

theorem mem_namespaceDeclarations_ensureNamespaces {t : DeclarationTree α} {ns : List Namespace}
    {n : Namespace} (h : n ∈ (t.ensureNamespaces ns).namespaceDeclarations) :
    n ∈ t.namespaceDeclarations ∨ n ∈ ns :=
  NamespaceForest.mem_namespaces_ensure h

@[simp] theorem namespaceDeclarations_setTypesAt (t : DeclarationTree α) (ns : List Namespace)
    (new : TypeForest α) :
    (t.setTypesAt ns new).namespaceDeclarations = t.namespaceDeclarations := by
  unfold setTypesAt
  split
  · rfl
  · exact NamespaceForest.namespaces_setTypesAt new ns t.namespaces

theorem mem_namespaceDeclarations_ensure {t : DeclarationTree α} {c : Container} {n : Namespace}
    (h : n ∈ (t.ensure c).namespaceDeclarations) :
    n ∈ t.namespaceDeclarations ∨ n ∈ c.namespaces := by
  have hset : n ∈ ((t.ensureNamespaces c.namespaces).setTypesAt c.namespaces
      (((t.ensureNamespaces c.namespaces).typesAt c.namespaces).ensure
        (t.ensureNamespaces c.namespaces).nextType c.types).1).namespaceDeclarations := h
  rw [namespaceDeclarations_setTypesAt] at hset
  exact mem_namespaceDeclarations_ensureNamespaces hset

/-- New nodes hold no entries and move none. -/
theorem located_ensure {t : DeclarationTree α} {c : Container}
    (hsame : ∀ n ∈ t.namespaceDeclarations ++ c.namespaces, ∀ m ∈ c.namespaces,
      n.id = m.id → n = m) : (t.ensure c).located = t.located := by
  have hsame' : ∀ n ∈ (t.ensureNamespaces c.namespaces).namespaces.namespaces,
      ∀ m ∈ c.namespaces, n.id = m.id → n = m := by
    intro n hn
    exact hsame n (List.mem_append.2 (mem_namespaceDeclarations_ensureNamespaces hn))
  obtain ⟨before, after, hlocated, hset⟩ :=
    located_setTypesAt (hasNamespaces_ensureNamespaces t c.namespaces) hsame'
  rw [located_ensureNamespaces] at hlocated
  have hnew := hset (((t.ensureNamespaces c.namespaces).typesAt c.namespaces).ensure t.nextType
    c.types).1
  rw [NamespaceForest.locatedIn, TypeForest.located_ensure, ← NamespaceForest.locatedIn,
    ← hlocated] at hnew
  exact hnew

/-- The members of a container are located there, and a new one goes behind them. -/
theorem exists_located_of_membersAt? {t : DeclarationTree α} {c : Container}
    {ms : List (Symbol × α)} (h : t.membersAt? c = some ms)
    (hnamespaces : ∀ n ∈ t.namespaceDeclarations, ∀ m ∈ c.namespaces, n.id = m.id → n = m)
    (htypes : ∀ u ∈ t.declarations, ∀ v ∈ c.types, u.id = v.id → u = v) :
    ∃ before after, t.located = before ++ ms.map (c, ·) ++ after ∧
      ∀ member value, (t.place c member value).located =
        before ++ (ms ++ [(member, value)]).map (c, ·) ++ after := by
  have hne : t.typesAt c.namespaces ≠ .none := by
    intro hnone
    simp [membersAt?, hnone] at h
  obtain ⟨before, after, hlocated, hset⟩ :=
    located_setTypesAt (hasNamespaces_of_typesAt_ne hne) hnamespaces
  obtain ⟨first, last, hlocated', hplace⟩ := TypeForest.exists_located_of_membersAt? h
    (fun u hu => htypes u (mem_declarations_of_mem_typesAt hu)) []
  refine ⟨before ++ first.map fun (ts, e) => (⟨c.namespaces, ts⟩, e),
    (last.map fun (ts, e) => (⟨c.namespaces, ts⟩, e)) ++ after, ?_, fun member value => ?_⟩
  · rw [hlocated, NamespaceForest.locatedIn, hlocated']
    simp
  · rw [place, hset, NamespaceForest.locatedIn, hplace]
    simp

/-! ## Runs -/

open TreeEvent

/-- Every entry stands in the container of its member, among the entries of the same container in
the order of their insertions. All nodes are those of the containers `cs`. -/
structure Housed (home : Symbol → Container) (cs : List Container) (es : List (TreeEvent α))
    (t : DeclarationTree α) : Prop where
  located_eq : ∀ x ∈ t.located, x.1 = home x.2.1
  entries_filter : ∀ c, t.entries.filter (fun e => decide (home e.1 = c)) =
    (es.filterMap entry?).filter fun e => decide (home e.1 = c)
  declarations_subset : t.declarations ⊆ cs.flatMap (·.types)
  namespaces_subset : t.namespaceDeclarations ⊆ cs.flatMap (·.namespaces)

namespace Housed

variable {home : Symbol → Container} {cs : List Container} {es : List (TreeEvent α)}
  {t : DeclarationTree α} {c : Container}

theorem empty (home : Symbol → Container) (cs : List Container) (pass : Pass) :
    (empty pass : DeclarationTree α).Housed home cs [] where
  located_eq := by intro x hx; cases hx
  entries_filter := fun _ => rfl
  declarations_subset := List.nil_subset _
  namespaces_subset := List.nil_subset _

/-- An event without an entry leaves the entries as they are. -/
theorem concat_of_same (h : t.Housed home cs es) {e : TreeEvent α} {t' : DeclarationTree α}
    (hlocated : t'.located = t.located) (hentry : e.entry? = none)
    (hdeclarations : t'.declarations ⊆ cs.flatMap (·.types))
    (hnamespaces : t'.namespaceDeclarations ⊆ cs.flatMap (·.namespaces)) :
    t'.Housed home cs (es ++ [e]) where
  located_eq := by
    rw [hlocated]
    exact h.located_eq
  entries_filter := by
    intro c
    rw [← map_snd_located, hlocated, map_snd_located, h.entries_filter c, List.filterMap_append,
      List.filterMap_cons_none hentry, List.filterMap_nil, List.append_nil]
  declarations_subset := hdeclarations
  namespaces_subset := hnamespaces

theorem ensure_subset (h : t.Housed home cs es) (hc : c ∈ cs) :
    (t.ensure c).declarations ⊆ cs.flatMap (·.types) ∧
      (t.ensure c).namespaceDeclarations ⊆ cs.flatMap (·.namespaces) := by
  refine ⟨fun u hu => ?_, fun n hn => ?_⟩
  · rcases mem_declarations_ensure hu with hold | ⟨hmem, -⟩
    · exact h.declarations_subset hold
    · exact List.mem_flatMap.2 ⟨c, hc, hmem⟩
  · rcases mem_namespaceDeclarations_ensure hn with hold | hmem
    · exact h.namespaces_subset hold
    · exact List.mem_flatMap.2 ⟨c, hc, hmem⟩

theorem located_ensure (h : t.Housed home cs es)
    (hnames : HaveUniformNames (cs.flatMap (·.namespaces))) (hc : c ∈ cs) :
    (t.ensure c).located = t.located := by
  refine DeclarationTree.located_ensure fun n hn m hm hid => ?_
  have hm' : m ∈ cs.flatMap (·.namespaces) := List.mem_flatMap.2 ⟨c, hc, hm⟩
  rcases List.mem_append.1 hn with hold | hnew
  · exact hnames.eq (h.namespaces_subset hold) hm' hid
  · exact hnames.eq (List.mem_flatMap.2 ⟨c, hc, hnew⟩) hm' hid

/-- All entries of a container are among its members. -/
theorem home_ne_of_mem_after (hes : Lawful es)
    (hreflects : t.Reflects (fun m c => home m = c) es) {ms before after : List (Symbol × α)}
    (hms : (t.ensure c).membersAt? c = some ms) (hentries : t.entries = before ++ ms ++ after) :
    ∀ e ∈ after, home e.1 ≠ c := by
  intro e he hhome
  have hmem : e.1 ∈ t.entries.map (·.1) := by
    rw [hentries, List.map_append]
    exact List.mem_append_right _ (List.mem_map_of_mem he)
  obtain ⟨ms', hms', hmem'⟩ :=
    (hreflects.holdsAt e.1 c ((hreflects.mem_entries_iff e.1).1 hmem) hhome).ensure c
  rw [hms, Option.some.injEq] at hms'
  subst hms'
  -- otherwise the member would have two entries
  have hnodup : (t.entries.map (·.1)).Nodup :=
    (hreflects.entries_perm.map (·.1)).nodup_iff.2 hes.nodup_entries
  rw [hentries, List.map_append, List.map_append, List.nodup_append] at hnodup
  exact hnodup.2.2 e.1 (List.mem_append_right _ hmem') e.1 (List.mem_map_of_mem he) rfl

/-- A new member is the last one of its container. -/
theorem concat_of_inserted (h : t.Housed home cs es)
    (hnames : HaveUniformNames (cs.flatMap (·.namespaces)))
    (htypes : AreUniform (cs.flatMap (·.types))) (hes : Lawful es)
    (hreflects : t.Reflects (fun m c => home m = c) es) (hc : c ∈ cs) {member : Symbol}
    (hhome : home member = c) {ms : List (Symbol × α)}
    (hms : (t.ensure c).membersAt? c = some ms) (value : α) :
    ((t.ensure c).place c member value).Housed home cs
      (es ++ [.insertion member .inserted (some (some value))]) := by
  obtain ⟨hdeclarations, hnamespaces⟩ := h.ensure_subset hc
  have hsame : ∀ n ∈ (t.ensure c).namespaceDeclarations, ∀ m ∈ c.namespaces, n.id = m.id → n = m :=
    fun n hn m hm hid => hnames.eq (hnamespaces hn) (List.mem_flatMap.2 ⟨c, hc, hm⟩) hid
  have hsame' : ∀ u ∈ (t.ensure c).declarations, ∀ v ∈ c.types, u.id = v.id → u = v :=
    fun u hu v hv hid => htypes u (hdeclarations hu) v (List.mem_flatMap.2 ⟨c, hc, hv⟩) hid
  obtain ⟨before, after, hlocated, hplace⟩ := exists_located_of_membersAt? hms hsame hsame'
  rw [h.located_ensure hnames hc] at hlocated
  have hentries : t.entries = before.map (·.2) ++ ms ++ after.map (·.2) := by
    rw [← map_snd_located, hlocated, List.map_append, List.map_append, map_snd_map]
  have hafter := home_ne_of_mem_after hes hreflects hms hentries
  refine ⟨?_, ?_, ?_, ?_⟩
  · intro x hx
    rw [hplace, List.map_append, ← List.append_assoc, List.append_assoc _ _ after] at hx
    rcases List.mem_append.1 hx with hold | hx
    · exact h.located_eq x (hlocated ▸ List.mem_append_left _ hold)
    · rcases List.mem_append.1 hx with hnew | hold
      · obtain rfl := List.mem_singleton.1 hnew
        exact hhome.symm
      · exact h.located_eq x (hlocated ▸ List.mem_append_right _ hold)
  · intro c'
    have hold := h.entries_filter c'
    have hnew : ((t.ensure c).place c member value).entries =
        before.map (·.2) ++ (ms ++ [(member, value)]) ++ after.map (·.2) := by
      rw [← map_snd_located, hplace, List.map_append, List.map_append, map_snd_map]
    have hlast : [TreeEvent.insertion member .inserted (some (some value))].filterMap entry? =
        [(member, value)] := rfl
    rw [hentries] at hold
    rw [hnew, List.filterMap_append, hlast, List.filter_append (es.filterMap entry?), ← hold]
    by_cases hcc : c = c'
    · subst hcc
      have hnone : (after.map (·.2)).filter (fun e => decide (home e.1 = c)) = [] :=
        List.filter_eq_nil_iff.2 fun e he => by simpa using hafter e he
      simp only [List.filter_append, hnone]
      simp [hhome]
    · have hother : home member ≠ c' := fun heq => hcc (hhome.symm.trans heq)
      simp [hother]
  · exact fun u hu => hdeclarations (mem_declarations_place hu)
  · rw [place, namespaceDeclarations_setTypesAt]
    exact hnamespaces

theorem step (h : t.Housed home cs es)
    (hnames : HaveUniformNames (cs.flatMap (·.namespaces)))
    (htypes : AreUniform (cs.flatMap (·.types))) (hes : Lawful es)
    (hreflects : t.Reflects (fun m c => home m = c) es) (report : Diagnostic → σ → σ) (s : σ)
    (op : TreeOperation α σ)
    (hop : ∀ c m accept, op = .insert c m accept → c ∈ cs ∧ home m = c) :
    (op.run report t s).2.1.Housed home cs (es ++ [(op.run report t s).1]) := by
  cases op with
  | refuse member =>
    refine h.concat_of_same (located_refuse t member) rfl ?_ ?_
    · rw [TreeOperation.run, declarations_refuse]
      exact h.declarations_subset
    · rw [TreeOperation.run, namespaceDeclarations_refuse]
      exact h.namespaces_subset
  | prune =>
    refine h.concat_of_same (located_prune t) rfl ?_ ?_
    · intro u hu
      refine h.declarations_subset ?_
      rcases List.mem_append.1 hu with hu | hu
      · exact List.mem_append_left _ (t.types.declarations_prune_subset hu)
      · exact List.mem_append_right _ ((NamespaceForest.prune_subset _).2 hu)
    · exact fun n hn => h.namespaces_subset ((NamespaceForest.prune_subset _).1 hn)
  | insert c member accept =>
    obtain ⟨hc, hhome⟩ := hop c member accept rfl
    obtain ⟨hdeclarations, hnamespaces⟩ := h.ensure_subset hc
    have hlocated := h.located_ensure hnames hc
    have hcases := observe_cases t c member report accept s
    simp only [TreeOperation.run]
    generalize t.observe c member report accept s = r at hcases
    obtain ⟨e, t', s'⟩ := r
    rcases hcases with ⟨rfl, -, rfl⟩ | ⟨rfl, -, rfl⟩ | ⟨value, ms, rfl, -, -, hms, rfl⟩ |
      ⟨rfl, -, -, rfl⟩
    · exact h.concat_of_same hlocated rfl hdeclarations hnamespaces
    · exact h.concat_of_same hlocated rfl hdeclarations hnamespaces
    · exact h.concat_of_inserted hnames htypes hes hreflects hc hhome hms value
    · refine h.concat_of_same ?_ rfl ?_ ?_
      · rw [located_refuse, hlocated]
      · rw [declarations_refuse]
        exact hdeclarations
      · rw [namespaceDeclarations_refuse]
        exact hnamespaces

theorem runAll (h : t.Housed home cs es)
    (hnames : HaveUniformNames (cs.flatMap (·.namespaces)))
    (htypes : AreUniform (cs.flatMap (·.types))) (hes : Lawful es)
    (hreflects : t.Reflects (fun m c => home m = c) es) (report : Diagnostic → σ → σ) (s : σ)
    (ops : List (TreeOperation α σ))
    (hops : ∀ c m accept, .insert c m accept ∈ ops → c ∈ cs ∧ home m = c) :
    let r := TreeOperation.runAll report t s ops
    r.2.1.Housed home cs (es ++ r.1) := by
  induction ops generalizing es t s with
  | nil => simpa [TreeOperation.runAll] using h
  | cons op ops ih =>
    have hop : ∀ c m accept, op = .insert c m accept → c ∈ cs ∧ home m = c :=
      fun c m accept e => hops c m accept (e ▸ List.mem_cons_self)
    obtain ⟨hfollows, hreflects'⟩ := hreflects.step (fun m c c' hc hc' => hc ▸ hc' ▸ ⟨rfl, rfl⟩)
      report s op fun c m accept e => (hop c m accept e).2
    have hhoused := h.step hnames htypes hes hreflects report s op hop
    have hrest := ih hhoused (hes.concat hfollows) hreflects' (op.run report t s).2.2
      fun c m accept hmem => hops c m accept (List.mem_cons_of_mem op hmem)
    simpa [TreeOperation.runAll] using hrest

end Housed

end DeclarationTree
end NativeBindings
