import NativeBindings.Proofs.DeclarationTree.Locations
import NativeBindings.Proofs.Passes.Fates

/-!
# Namespaces and types in passes

A pass adds nodes to its tree only on the way to a member, so every node is a namespace or a type
around one of the members that were declared.

## Main definitions

- `DeclarationTree.IsWithin` — a tree whose nodes are namespaces and types around some members

## Main statements

- `DeclarationTree.IsWithin.of_mem_located` — where the entries of such a tree are located
- `ImportsPass.isWithin_run`, `ConstantsPass.isWithin_run` — the trees of both passes
-/

namespace NativeBindings

variable {α : Type} {members : List Member} {m : Member}

/-- The namespaces around some members. -/
def enclosingNamespaces (members : List Member) : List Namespace :=
  members.flatMap (·.container.namespaces)

/-! ## Locations -/

theorem TypeForest.subset_of_mem_located {path : List EnclosingType} {f : TypeForest α}
    {x : List EnclosingType × Symbol × α} (h : x ∈ f.located path) :
    x.1 ⊆ path ++ f.declarations := by
  induction f generalizing path with
  | none => cases h
  | node number type members nested siblings ihNested ihSiblings =>
    intro t ht
    rw [located, List.mem_append, List.mem_append] at h
    simp only [declarations, List.mem_append, List.mem_cons]
    rcases h with (h | h) | h
    · obtain ⟨e, -, rfl⟩ := List.mem_map.1 h
      simp only [List.mem_append, List.mem_singleton] at ht
      tauto
    · have := ihNested h ht
      simp only [List.mem_append, List.mem_singleton] at this
      tauto
    · have := ihSiblings h ht
      simp only [List.mem_append] at this
      tauto

namespace NamespaceForest

theorem subset_of_mem_locatedIn {path : List Namespace} {f : TypeForest α}
    {x : Container × Symbol × α} (h : x ∈ locatedIn path f) :
    x.1.namespaces = path ∧ x.1.types ⊆ f.declarations := by
  obtain ⟨y, hy, rfl⟩ := List.mem_map.1 h
  exact ⟨rfl, TypeForest.subset_of_mem_located hy⟩

theorem subset_of_mem_located {path : List Namespace} {f : NamespaceForest α}
    {x : Container × Symbol × α} (h : x ∈ f.located path) :
    x.1.namespaces ⊆ path ++ f.namespaces ∧ x.1.types ⊆ f.declarations := by
  induction f generalizing path with
  | none => cases h
  | node number decl types children siblings ihChildren ihSiblings =>
    rw [located, List.mem_append, List.mem_append] at h
    rcases h with (h | h) | h
    · obtain ⟨hpath, htypes⟩ := subset_of_mem_locatedIn h
      refine ⟨fun n hn => ?_, List.subset_append_of_subset_left _
        (List.subset_append_of_subset_left _ htypes)⟩
      rw [hpath, List.mem_append, List.mem_singleton] at hn
      simp only [namespaces, List.mem_append, List.mem_cons]
      tauto
    · obtain ⟨hnamespaces, htypes⟩ := ihChildren h
      refine ⟨fun n hn => ?_, List.subset_append_of_subset_left _
        (List.subset_append_of_subset_right _ htypes)⟩
      have := hnamespaces hn
      simp only [namespaces, List.mem_append, List.mem_cons] at this ⊢
      tauto
    · obtain ⟨hnamespaces, htypes⟩ := ihSiblings h
      refine ⟨fun n hn => ?_, List.subset_append_of_subset_right _ htypes⟩
      have := hnamespaces hn
      simp only [namespaces, List.mem_append, List.mem_cons] at this ⊢
      tauto

end NamespaceForest

/-! ## Trees -/

namespace DeclarationTree

/-- All nodes of the tree are namespaces and types around some members. -/
structure IsWithin (members : List Member) (t : DeclarationTree α) : Prop where
  types : t.declarations ⊆ enclosingTypes members
  namespaces : t.namespaceDeclarations ⊆ enclosingNamespaces members

namespace IsWithin

variable {t : DeclarationTree α}

theorem empty (members : List Member) (pass : Pass) :
    (empty pass : DeclarationTree α).IsWithin members where
  types := List.nil_subset _
  namespaces := List.nil_subset _

theorem ensure (h : t.IsWithin members) (hm : m ∈ members) :
    (t.ensure m.container).IsWithin members where
  types := by
    intro u hu
    rcases mem_declarations_ensure hu with hold | ⟨hnew, -⟩
    · exact h.types hold
    · exact List.mem_flatMap.2 ⟨m, hm, hnew⟩
  namespaces := by
    intro n hn
    rcases mem_namespaceDeclarations_ensure hn with hold | hnew
    · exact h.namespaces hold
    · exact List.mem_flatMap.2 ⟨m, hm, hnew⟩

theorem place (h : t.IsWithin members) (c : Container) (member : Symbol) (value : α) :
    (t.place c member value).IsWithin members where
  types := fun _ hu => h.types (mem_declarations_place hu)
  namespaces := by
    rw [DeclarationTree.place, namespaceDeclarations_setTypesAt]
    exact h.namespaces

theorem refuse (h : t.IsWithin members) (member : Symbol) : (t.refuse member).IsWithin members where
  types := by
    rw [declarations_refuse]
    exact h.types
  namespaces := by
    rw [namespaceDeclarations_refuse]
    exact h.namespaces

theorem prune (h : t.IsWithin members) : t.prune.IsWithin members where
  types := by
    intro u hu
    refine h.types ((List.mem_append.1 hu).elim (fun hu => ?_) fun hu => ?_)
    · exact List.mem_append_left _ (TypeForest.declarations_prune_subset _ hu)
    · exact List.mem_append_right _ ((NamespaceForest.prune_subset _).2 hu)
  namespaces := fun _ hn => h.namespaces ((NamespaceForest.prune_subset _).1 hn)

/-- The entries are located in namespaces and types around the members. -/
theorem of_mem_located (h : t.IsWithin members) {x : Container × Symbol × α} (hx : x ∈ t.located) :
    x.1.namespaces ⊆ enclosingNamespaces members ∧ x.1.types ⊆ enclosingTypes members := by
  rcases List.mem_append.1 hx with hx | hx
  · obtain ⟨hnamespaces, htypes⟩ := NamespaceForest.subset_of_mem_locatedIn hx
    rw [hnamespaces]
    exact ⟨List.nil_subset _, fun u hu => h.types (List.mem_append_left _ (htypes hu))⟩
  · obtain ⟨hnamespaces, htypes⟩ := NamespaceForest.subset_of_mem_located hx
    exact ⟨fun n hn => h.namespaces (hnamespaces hn),
      fun u hu => h.types (List.mem_append_right _ (htypes hu))⟩

end IsWithin
end DeclarationTree

/-! ## Passes -/

namespace ImportsPass

theorem isWithin_add {rule : AccessRule} {s : ImportsPass} {b : Binding}
    (h : s.tree.IsWithin members) (hb : b.target ∈ members) :
    (s.add rule b).tree.IsWithin members := by
  have hgrown := h.ensure hb
  have hadds := add_adds rule s b
  generalize s.add rule b = s' at hadds ⊢
  cases hadds with
  | blocked | untyped | present | refused => exact hgrown
  | accepted kind ms hvalid hms => exact hgrown.place _ _ _
  | declined error herror => exact hgrown.refuse _

theorem isWithin_added (rule : AccessRule) (members : List Member) :
    (added rule members).tree.IsWithin members := by
  refine List.foldlRecOn _ (motive := fun s : ImportsPass => s.tree.IsWithin members)
    _ (.empty members .imports) fun s h b hb => ?_
  obtain ⟨m, hm, hofMember⟩ := List.mem_filterMap.1 hb
  exact isWithin_add h (Binding.target_of_ofMember? hofMember ▸ hm)

theorem isWithin_run (c : Compilation) (members : List Member) (rule : AccessRule)
    (printer : DeclarationTree Binding → SlotTable → String) :
    (run c members rule printer).tree.IsWithin members := by
  by_cases h : members.filterMap Binding.ofMember? = [] ∨ c.allowsUnsafeCode = true
  · rw [run_eq_print h, (print_eq _).1]
    exact (isWithin_added rule members).prune
  · rw [run_of_gated h]
    exact .empty members .imports

end ImportsPass

namespace ConstantsPass

theorem isWithin_add {s : ConstantsPass} {c : Constant} (h : s.tree.IsWithin members)
    (hc : c.target ∈ members) : (s.add c).tree.IsWithin members := by
  have hgrown := h.ensure hc
  have hadds := add_adds s c
  generalize s.add c = s' at hadds ⊢
  cases hadds with
  | known => exact h
  | blocked | untyped => exact hgrown
  | accepted value ms hvalue hms => exact hgrown.place _ _ _
  | declined error herror => exact h.refuse _

theorem isWithin_added (members : List Member) : (added members).tree.IsWithin members := by
  refine List.foldlRecOn _ (motive := fun s : ConstantsPass => s.tree.IsWithin members)
    _ (.empty members .constants) fun s h c hc => ?_
  obtain ⟨m, hm, hofMember⟩ := List.mem_filterMap.1 hc
  exact isWithin_add h (Constant.target_of_ofMember? hofMember ▸ hm)

theorem isWithin_run (c : Compilation) (members : List Member)
    (printer : DeclarationTree EvaluatedConstant → String) :
    (run c members printer).tree.IsWithin members := by
  by_cases h : members.filterMap Constant.ofMember? = [] ∨
    c.knowsType Compilation.readOnlySpan = true
  · rw [run_eq_print h, (print_eq _).1]
    exact (isWithin_added members).prune
  · rw [run_of_gated h]
    exact .empty members .constants

end ConstantsPass
end NativeBindings
