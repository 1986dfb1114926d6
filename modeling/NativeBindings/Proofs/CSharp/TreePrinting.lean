import Mathlib.Data.List.Forall2
import NativeBindings.CSharp.Accessor
import NativeBindings.CSharp.ConstantMember
import NativeBindings.Proofs.DeclarationTree.Locations
import NativeBindings.Proofs.Fragment.Nesting
import NativeBindings.Proofs.Text.Joined

/-!
# Printed declaration trees

A tree is printed as a block for each type and for each namespace that does not consist of a single
child. Such a namespace gives its name to the block of its child, so that one block may stand for
several namespaces. The members come out in the order of the tree, each of them once, below the
headers of its own namespaces and types.

## Main definitions

- `Container.IsHeadedBy` — headers that name the namespaces and types of a container
- `IsTypeBlock`, `IsNamespaceBlock` — how blocks are laid out
- `IsPrinted` — generated text that shows the members of a tree

## Main statements

- `DeclarationTree.isPrinted_runAll` — trees that were built by operations are printed in this way
-/

namespace NativeBindings

variable {α σ : Type}

/-! ## Dotted names -/

/-- The dotted name of some namespaces. -/
def dotted (ns : List Namespace) : String := joined "." (ns.map (·.name))

theorem dotted_append {ns ms : List Namespace} (hns : ns ≠ []) (hms : ms ≠ []) :
    dotted (ns ++ ms) = dotted ns ++ "." ++ dotted ms := by
  rw [dotted, List.map_append]
  exact joined_append "." (by simpa using hns) (by simpa using hms)

/-- Runs of namespaces are named by the dotted names of the runs. -/
theorem joined_map_dotted {groups : List (List Namespace)} (h : [] ∉ groups) :
    joined "." (groups.map dotted) = dotted groups.flatten := by
  induction groups with
  | nil => rfl
  | cons g groups ih =>
    have hg : g ≠ [] := fun he => h (he ▸ List.mem_cons_self)
    have hrest : [] ∉ groups := fun hmem => h (List.mem_cons_of_mem g hmem)
    by_cases hnil : groups = []
    · subst hnil
      simp [joined]
    · have hflatten : groups.flatten ≠ [] := by
        intro he
        obtain ⟨g', hg'⟩ := List.exists_mem_of_ne_nil groups hnil
        exact hrest (List.flatten_eq_nil_iff.1 he g' hg' ▸ hg')
      rw [List.map_cons, joined_cons_of_ne_nil "." _ (by simpa using hnil), ih hrest,
        List.flatten_cons, dotted_append hg hflatten]

/-- The headers of runs of namespaces. -/
def runHeaders (groups : List (List Namespace)) : List String :=
  groups.map fun g => namespaceHeader (dotted g)

/-- The headers name the namespaces and the types of a container, the outermost first. A header may
stand for several namespaces in a row; there is one for each type. -/
def Container.IsHeadedBy (c : Container) (headers : List String) : Prop :=
  ∃ names : List String, joined "." names = c.namespacePath ∧ (names = [] ↔ c.namespaces = []) ∧
    headers = names.map namespaceHeader ++ c.types.map (·.partialHeader)

theorem Container.isHeadedBy_of_groups {c : Container} {groups : List (List Namespace)}
    (h : [] ∉ groups) (hflatten : groups.flatten = c.namespaces) :
    c.IsHeadedBy (runHeaders groups ++ c.types.map (·.partialHeader)) := by
  refine ⟨groups.map dotted, ?_, ?_, ?_⟩
  · rw [joined_map_dotted h, hflatten, dotted, namespacePath]
  · rw [List.map_eq_nil_iff, ← hflatten, List.flatten_eq_nil_iff]
    refine ⟨fun he g hg => ?_, fun hall => ?_⟩
    · subst he
      cases hg
    · exact List.eq_nil_iff_forall_not_mem.2 fun g hg => h (hall g hg ▸ hg)
  · rw [runHeaders, List.map_map]
    rfl

/-! ## Generated code -/

/-- The printers of generated code. -/
inductive TreePrinter.IsCSharp : {α : Type} → TreePrinter α → Prop where
  | bindings (tool : Tool) : IsCSharp (Binding.printer tool)
  | constants (tool : Tool) : IsCSharp (EvaluatedConstant.printer tool)

namespace TreePrinter.IsCSharp

variable {p : TreePrinter α}

theorem namespaceHeader_eq (hp : p.IsCSharp) :
    p.namespaceHeader = NativeBindings.namespaceHeader := by
  cases hp <;> rfl

theorem typeHeader_eq (hp : p.IsCSharp) : p.typeHeader = EnclosingType.partialHeader := by
  cases hp <;> rfl

/-- The text of a member is no block. -/
theorem items_member (hp : p.IsCSharp) (headers : List String) (value : α) :
    (Fragment.sequence (p.member value)).items headers =
      [(headers, .sequence (p.member value))] := by
  cases hp with
  | bindings tool => rfl
  | constants tool =>
    have hmember : (EvaluatedConstant.printer tool).member value = value.implementation tool := rfl
    rw [hmember, EvaluatedConstant.implementation]
    split
    · rfl
    · rw [EvaluatedConstant.methodText]
      split <;> rfl

end TreePrinter.IsCSharp

theorem namespaceHeader_ne_partialHeader (name : String) (t : EnclosingType) :
    namespaceHeader name ≠ t.partialHeader := by
  intro h
  have hpartial : startsWith "partial " t.partialHeader = true := by
    rw [EnclosingType.partialHeader]
    split
    · rw [String.append_assoc, String.append_assoc]
      exact startsWith_append_self _ _
    · exact startsWith_append_self _ _
  rw [← h, namespaceHeader, startsWith_append_of_clash (by decide)] at hpartial
  exact Bool.noConfusion hpartial

/-! ## Items -/

/-- A member with its container, and an item that is its text below the headers of the container. -/
def IsEmitted (p : TreePrinter α) (x : Container × Symbol × α) (item : List String × Fragment) :
    Prop :=
  item.2 = .sequence (p.member x.2.2) ∧ x.1.IsHeadedBy item.1

/-- The prefix `qualifier` of a name stands for the namespaces `pending`. -/
def Qualifies (qualifier : String) (pending : List Namespace) : Prop :=
  ∀ n : Namespace, qualifier ++ n.name = dotted (pending ++ [n])

theorem qualifies_nil : Qualifies "" [] := by
  intro n
  rw [String.empty_append]
  rfl

theorem Qualifies.concat {qualifier : String} {pending : List Namespace}
    (h : Qualifies qualifier pending) (decl : Namespace) :
    Qualifies (qualifier ++ decl.name ++ ".") (pending ++ [decl]) := by
  intro n
  rw [h decl, dotted_append (List.append_ne_nil_of_right_ne_nil _ (List.cons_ne_nil _ _))
    (List.cons_ne_nil n [])]
  rfl

namespace TreePrinter

variable {p : TreePrinter α}

theorem items_members (hp : p.IsCSharp) (headers : List String) (members : List (Symbol × α)) :
    Fragment.itemsAll headers (members.map fun e => .sequence (p.member e.2)) =
      members.map fun e => (headers, .sequence (p.member e.2)) := by
  induction members with
  | nil => rfl
  | cons e members ih =>
    rw [List.map_cons, Fragment.itemsAll, hp.items_member, ih]
    rfl

/-- The items of types are their members, each below the headers of its types. -/
theorem items_typeBlocks (hp : p.IsCSharp) (headers : List String) (path : List EnclosingType)
    (f : TypeForest α) :
    Fragment.itemsAll (headers ++ path.map (·.partialHeader)) (p.typeBlocks f) =
      (f.located path).map fun x =>
        (headers ++ x.1.map (·.partialHeader), .sequence (p.member x.2.2)) := by
  induction f generalizing path with
  | none => rfl
  | node number type members nested siblings ihNested ihSiblings =>
    have hpath : headers ++ path.map (·.partialHeader) ++ [type.partialHeader] =
        headers ++ (path ++ [type]).map (·.partialHeader) := by
      simp
    rw [typeBlocks, Fragment.itemsAll, Fragment.items_braced, hp.typeHeader_eq, hpath,
      Fragment.itemsAll_separated, Fragment.itemsAll_append, items_members hp, ihNested,
      ihSiblings, TypeForest.located]
    simp only [List.map_append, List.map_map, Function.comp_def]

theorem items_typeBlocks_emitted (hp : p.IsCSharp) {groups : List (List Namespace)}
    (h : [] ∉ groups) (f : TypeForest α) :
    List.Forall₂ (IsEmitted p) (NamespaceForest.locatedIn groups.flatten f)
      (Fragment.itemsAll (runHeaders groups) (p.typeBlocks f)) := by
  have hitems := items_typeBlocks hp (runHeaders groups) [] f
  rw [List.map_nil, List.append_nil] at hitems
  rw [hitems, NamespaceForest.locatedIn, List.forall₂_map_left_iff, List.forall₂_map_right_iff,
    List.forall₂_same]
  intro x hx
  exact ⟨rfl, Container.isHeadedBy_of_groups h rfl⟩

/-- A namespace with one child and no types is merged with it; any other one has a block. -/
theorem namespaceBlocks_node (p : TreePrinter α) (qualifier : String) (number : Nat)
    (decl : Namespace) (types : TypeForest α) (children siblings : NamespaceForest α) :
    (types = .none ∧ children ≠ .none ∧
      p.namespaceBlocks qualifier (.node number decl types children siblings) =
        p.namespaceBlocks (qualifier ++ decl.name ++ ".") children ++
          p.namespaceBlocks qualifier siblings) ∨
    ((types = .none → ∀ n d ts cs, children ≠ .node n d ts cs .none) ∧
      p.namespaceBlocks qualifier (.node number decl types children siblings) =
        .braced (p.namespaceHeader (qualifier ++ decl.name))
            (Fragment.separated (p.typeBlocks types ++ p.namespaceBlocks "" children)) ::
          p.namespaceBlocks qualifier siblings) := by
  by_cases hmerged : types = .none ∧ ∃ n d ts cs, children = .node n d ts cs .none
  · obtain ⟨rfl, n, d, ts, cs, rfl⟩ := hmerged
    exact .inl ⟨rfl, nofun, rfl⟩
  · have hblock : types = .none → ∀ n d ts cs, children ≠ .node n d ts cs .none :=
      fun htypes n d ts cs hchildren => hmerged ⟨htypes, n, d, ts, cs, hchildren⟩
    refine .inr ⟨hblock, ?_⟩
    rw [namespaceBlocks]
    · rfl
    · exact fun n d ts cs htypes => hblock htypes n d ts cs

/-- The items of namespaces are their members. The headers of `groups` have been printed, the
namespaces `pending` have become a prefix of the next name. -/
theorem items_namespaceBlocks_emitted (hp : p.IsCSharp) {groups : List (List Namespace)}
    (h : [] ∉ groups) {qualifier : String} {pending : List Namespace}
    (hqualifier : Qualifies qualifier pending) (f : NamespaceForest α) :
    List.Forall₂ (IsEmitted p) (f.located (groups.flatten ++ pending))
      (Fragment.itemsAll (runHeaders groups) (p.namespaceBlocks qualifier f)) := by
  induction f generalizing groups qualifier pending with
  | none => exact .nil
  | node number decl types children siblings ihChildren ihSiblings =>
    rw [NamespaceForest.located]
    refine (namespaceBlocks_node p qualifier number decl types children siblings).elim ?_ ?_
    · rintro ⟨rfl, -, hblocks⟩
      -- no header yet: the namespace joins the pending ones
      have hchildren := ihChildren h (hqualifier.concat decl)
      rw [← List.append_assoc] at hchildren
      rw [hblocks, Fragment.itemsAll_append]
      exact List.rel_append hchildren (ihSiblings h hqualifier)
    · rintro ⟨-, hblocks⟩
      -- the header of the block stands for the pending namespaces and this one
      have hgroups : [] ∉ groups ++ [pending ++ [decl]] := by simpa using h
      have hflatten : (groups ++ [pending ++ [decl]]).flatten =
          groups.flatten ++ pending ++ [decl] := by
        simp
      have hheaders : runHeaders groups ++ [p.namespaceHeader (qualifier ++ decl.name)] =
          runHeaders (groups ++ [pending ++ [decl]]) := by
        rw [hp.namespaceHeader_eq, hqualifier decl, runHeaders, runHeaders, List.map_append]
        rfl
      have hchildren := ihChildren hgroups qualifies_nil
      rw [List.append_nil] at hchildren
      rw [hblocks, Fragment.itemsAll, Fragment.items_braced, hheaders, Fragment.itemsAll_separated,
        Fragment.itemsAll_append, ← hflatten]
      exact List.rel_append (List.rel_append (items_typeBlocks_emitted hp hgroups types) hchildren)
        (ihSiblings h hqualifier)

theorem namespaceBlocks_ne_nil (p : TreePrinter α) (qualifier : String) {f : NamespaceForest α}
    (h : f ≠ .none) : p.namespaceBlocks qualifier f ≠ [] := by
  induction f generalizing qualifier with
  | none => exact absurd rfl h
  | node number decl types children siblings ihChildren ihSiblings =>
    refine (namespaceBlocks_node p qualifier number decl types children siblings).elim ?_ ?_
    · rintro ⟨-, hchildren, hblocks⟩
      rw [hblocks]
      exact List.append_ne_nil_of_left_ne_nil (ihChildren _ hchildren) _
    · rintro ⟨-, hblocks⟩
      rw [hblocks]
      exact List.cons_ne_nil _ _

/-- Only a forest of one node has one block. -/
theorem exists_node_of_namespaceBlocks_eq {qualifier : String} {f : NamespaceForest α}
    {b : Fragment} (h : p.namespaceBlocks qualifier f = [b]) :
    ∃ n d ts cs, f = .node n d ts cs .none := by
  cases f with
  | none => cases h
  | node n d ts cs siblings =>
    by_cases hsiblings : siblings = .none
    · exact ⟨n, d, ts, cs, hsiblings ▸ rfl⟩
    · exfalso
      -- the first node gives at least one block, and so do its siblings
      have hlater : 0 < (p.namespaceBlocks qualifier siblings).length :=
        List.length_pos_iff.2 (namespaceBlocks_ne_nil p qualifier hsiblings)
      have hlength := congrArg List.length h
      rw [List.length_singleton] at hlength
      refine (namespaceBlocks_node p qualifier n d ts cs siblings).elim ?_ ?_
      · rintro ⟨-, hchildren, hblocks⟩
        have hfirst : 0 < (p.namespaceBlocks (qualifier ++ d.name ++ ".") cs).length :=
          List.length_pos_iff.2 (namespaceBlocks_ne_nil p _ hchildren)
        rw [hblocks, List.length_append] at hlength
        omega
      · rintro ⟨-, hblocks⟩
        rw [hblocks, List.length_cons] at hlength
        omega

end TreePrinter

/-! ## Blocks -/

/-- Of each container the entries stand in the order `order`. -/
def KeepsOrder (home : Symbol → Container) (order es : List (Symbol × α)) : Prop :=
  ∀ c, (es.filter fun e => decide (home e.1 = c)).Sublist order

theorem KeepsOrder.of_append {home : Symbol → Container} {order xs ys : List (Symbol × α)}
    (h : KeepsOrder home order (xs ++ ys)) :
    KeepsOrder home order xs ∧ KeepsOrder home order ys := by
  simp only [KeepsOrder, List.filter_append] at h
  exact ⟨fun c => (List.sublist_append_left _ _).trans (h c),
    fun c => (List.sublist_append_right _ _).trans (h c)⟩

theorem KeepsOrder.sublist {home : Symbol → Container} {order es : List (Symbol × α)}
    (h : KeepsOrder home order es) {c : Container} (hc : ∀ e ∈ es, home e.1 = c) :
    es.Sublist order := by
  have hall : es.filter (fun e => decide (home e.1 = c)) = es :=
    List.filter_eq_self.2 fun e he => decide_eq_true (hc e he)
  rw [← hall]
  exact h c

/-- A block for a type in the container `c`: first the members of the type in the given order, then
blocks for the types in it. -/
inductive IsTypeBlock (p : TreePrinter α) (home : Symbol → Container)
    (order : List (Symbol × α)) : Container → Fragment → Prop where
  | mk (c : Container) (type : EnclosingType) {members : List (Symbol × α)} {nested : List Fragment}
    (hhome : ∀ e ∈ members, home e.1 = ⟨c.namespaces, c.types ++ [type]⟩)
    (horder : members.Sublist order)
    (hnested : ∀ b ∈ nested, IsTypeBlock p home order ⟨c.namespaces, c.types ++ [type]⟩ b) :
    IsTypeBlock p home order c (.braced (p.typeHeader type)
      (Fragment.separated (members.map (fun e => .sequence (p.member e.2)) ++ nested)))

/-- A block for a run of namespaces in the namespaces `path`: first blocks for its types, then
blocks for its child namespaces, but not a single block for a namespace. -/
inductive IsNamespaceBlock (p : TreePrinter α) (home : Symbol → Container)
    (order : List (Symbol × α)) : List Namespace → Fragment → Prop where
  | mk (path run : List Namespace) {types children : List Fragment} (hrun : run ≠ [])
    (htypes : ∀ b ∈ types, IsTypeBlock p home order ⟨path ++ run, []⟩ b)
    (hchildren : ∀ b ∈ children, IsNamespaceBlock p home order (path ++ run) b)
    (hcontent : ∀ name body, types ++ children ≠ [.braced (p.namespaceHeader name) body]) :
    IsNamespaceBlock p home order path (.braced (p.namespaceHeader (dotted run))
      (Fragment.separated (types ++ children)))

section Blocks

variable {p : TreePrinter α} {home : Symbol → Container} {order : List (Symbol × α)}

theorem isTypeBlock_of_mem {ns : List Namespace} {path : List EnclosingType} {f : TypeForest α}
    (hhome : ∀ x ∈ f.located path, home x.2.1 = ⟨ns, x.1⟩)
    (horder : KeepsOrder home order f.entries) :
    ∀ b ∈ p.typeBlocks f, IsTypeBlock p home order ⟨ns, path⟩ b := by
  induction f generalizing path with
  | none => simp [TreePrinter.typeBlocks]
  | node number type members nested siblings ihNested ihSiblings =>
    simp only [TypeForest.located, List.mem_append] at hhome
    obtain ⟨hown, hsiblings⟩ := horder.of_append
    obtain ⟨hmembers, hnested⟩ := hown.of_append
    have hin : ∀ e ∈ members, home e.1 = ⟨ns, path ++ [type]⟩ :=
      fun e he => hhome (path ++ [type], e) (.inl (.inl (List.mem_map_of_mem he)))
    intro b hb
    rw [TreePrinter.typeBlocks, List.mem_cons] at hb
    rcases hb with rfl | hb
    · exact .mk ⟨ns, path⟩ type hin (hmembers.sublist hin)
        (ihNested (fun x hx => hhome x (.inl (.inr hx))) hnested)
    · exact ihSiblings (fun x hx => hhome x (.inr hx)) hsiblings b hb

theorem isTypeBlock_of_mem_locatedIn {path : List Namespace} {f : TypeForest α}
    (hhome : ∀ x ∈ NamespaceForest.locatedIn path f, home x.2.1 = x.1)
    (horder : KeepsOrder home order f.entries) :
    ∀ b ∈ p.typeBlocks f, IsTypeBlock p home order ⟨path, []⟩ b := by
  refine isTypeBlock_of_mem (fun x hx => ?_) horder
  exact hhome (⟨path, x.1⟩, x.2) (List.mem_map_of_mem hx)

/-- What a block holds is no single block for a namespace. -/
theorem content_ne_namespaceBlock (hp : p.IsCSharp) {types : TypeForest α}
    {children : NamespaceForest α}
    (h : types = .none → ∀ n d ts cs, children ≠ .node n d ts cs .none) (name : String)
    (body : List Fragment) :
    p.typeBlocks types ++ p.namespaceBlocks "" children ≠
      [.braced (p.namespaceHeader name) body] := by
  intro heq
  cases types with
  -- without types a single block means a single child, and such a namespace has no block
  | none =>
    rw [TreePrinter.typeBlocks, List.nil_append] at heq
    obtain ⟨n, d, ts, cs, hchildren⟩ := TreePrinter.exists_node_of_namespaceBlocks_eq heq
    exact h rfl n d ts cs hchildren
  | node number type members nested siblings =>
    rw [TreePrinter.typeBlocks, List.cons_append, List.cons.injEq] at heq
    have hheader : p.namespaceHeader name = p.typeHeader type := by
      have hfirst := heq.1
      simp only [Fragment.braced, Fragment.sequence.injEq, List.cons.injEq,
        Fragment.line.injEq] at hfirst
      exact hfirst.1.symm
    rw [hp.namespaceHeader_eq, hp.typeHeader_eq] at hheader
    exact namespaceHeader_ne_partialHeader name type hheader

theorem isNamespaceBlock_of_mem (hp : p.IsCSharp) {path pending : List Namespace}
    {qualifier : String} (hqualifier : Qualifies qualifier pending) {f : NamespaceForest α}
    (hhome : ∀ x ∈ f.located (path ++ pending), home x.2.1 = x.1)
    (horder : KeepsOrder home order f.entries) :
    ∀ b ∈ p.namespaceBlocks qualifier f, IsNamespaceBlock p home order path b := by
  induction f generalizing path pending qualifier with
  | none => simp [TreePrinter.namespaceBlocks]
  | node number decl types children siblings ihChildren ihSiblings =>
    simp only [NamespaceForest.located, List.mem_append, List.append_assoc] at hhome
    obtain ⟨hown, hlater⟩ := horder.of_append
    obtain ⟨htypes, hchildren⟩ := hown.of_append
    have hsiblings : ∀ b ∈ p.namespaceBlocks qualifier siblings,
        IsNamespaceBlock p home order path b :=
      ihSiblings hqualifier (fun x hx => hhome x (.inr (.inr hx))) hlater
    intro b hb
    refine (TreePrinter.namespaceBlocks_node p qualifier number decl types children siblings).elim
      ?_ ?_
    · rintro ⟨-, -, hblocks⟩
      rw [hblocks, List.mem_append] at hb
      rcases hb with hb | hb
      · exact ihChildren (hqualifier.concat decl) (fun x hx => hhome x (.inr (.inl hx)))
          hchildren b hb
      · exact hsiblings b hb
    · rintro ⟨hmerged, hblocks⟩
      rw [hblocks, List.mem_cons] at hb
      rcases hb with rfl | hb
      · rw [hqualifier decl]
        refine .mk path (pending ++ [decl]) (List.append_ne_nil_of_right_ne_nil _ (by simp))
          ?_ ?_ (content_ne_namespaceBlock hp hmerged)
        · exact isTypeBlock_of_mem_locatedIn (fun x hx => hhome x (.inl hx)) htypes
        · refine ihChildren qualifies_nil (fun x hx => ?_) hchildren
          rw [List.append_nil] at hx
          exact hhome x (.inr (.inl hx))
      · exact hsiblings b hb

end Blocks

/-! ## Trees -/

/-- Generated text shows the members of a tree. Its items are the members in the order of the tree,
each below the headers of its container, and its blocks list members in the order `order`. -/
structure IsPrinted (p : TreePrinter α) (home : Symbol → Container)
    (order entries : List (Symbol × α)) (fs : List Fragment) : Prop where
  items : List.Forall₂ (fun e => IsEmitted p (home e.1, e)) entries (Fragment.itemsAll [] fs)
  layout : ∃ types children, fs = Fragment.separated (types ++ children) ∧
    (∀ b ∈ types, IsTypeBlock p home order {} b) ∧
    ∀ b ∈ children, IsNamespaceBlock p home order [] b

/-- The container into which an operation inserts. -/
def TreeOperation.container? : TreeOperation α σ → Option Container
  | insert c _ _ => some c
  | refuse _ | prune => none

namespace DeclarationTree

/-- The items of a printed tree are its members, each below the headers of its container. -/
theorem items_fragments_emitted {p : TreePrinter α} (hp : p.IsCSharp) (t : DeclarationTree α) :
    List.Forall₂ (IsEmitted p) t.located (Fragment.itemsAll [] (t.fragments p)) := by
  have hnil : [] ∉ ([] : List (List Namespace)) := List.not_mem_nil
  have htypes := TreePrinter.items_typeBlocks_emitted hp hnil t.types
  have hnamespaces := TreePrinter.items_namespaceBlocks_emitted hp hnil qualifies_nil t.namespaces
  rw [fragments, Fragment.itemsAll_separated, Fragment.itemsAll_append]
  exact List.rel_append htypes hnamespaces

theorem Housed.isPrinted {p : TreePrinter α} (hp : p.IsCSharp) {home : Symbol → Container}
    {cs : List Container} {es : List (TreeEvent α)} {t : DeclarationTree α}
    (h : t.Housed home cs es) :
    IsPrinted p home (es.filterMap TreeEvent.entry?) t.entries (t.fragments p) where
  items := by
    have hlocated : t.located = t.entries.map fun e => (home e.1, e) := by
      rw [← map_snd_located, List.map_map]
      refine (List.map_id t.located).symm.trans (List.map_congr_left fun x hx => ?_)
      exact Prod.ext (h.located_eq x hx) rfl
    rw [← List.forall₂_map_left_iff, ← hlocated]
    exact items_fragments_emitted hp t
  layout := by
    have hhome : ∀ x ∈ t.located, home x.2.1 = x.1 := fun x hx => (h.located_eq x hx).symm
    have horder : KeepsOrder home (es.filterMap TreeEvent.entry?) t.entries := by
      intro c
      rw [h.entries_filter c]
      exact List.filter_sublist
    obtain ⟨htypes, hnamespaces⟩ := horder.of_append
    simp only [located, List.mem_append] at hhome
    refine ⟨p.typeBlocks t.types, p.namespaceBlocks "" t.namespaces, rfl, ?_, ?_⟩
    · exact isTypeBlock_of_mem_locatedIn (fun x hx => hhome x (.inl hx)) htypes
    · exact isNamespaceBlock_of_mem hp qualifies_nil (fun x hx => hhome x (.inr hx)) hnamespaces

/-- In a run from the empty tree all members are printed as they belong, if every member keeps its
container and every namespace and every type its declaration. -/
theorem isPrinted_runAll {p : TreePrinter α} (hp : p.IsCSharp) (pass : Pass)
    (report : Diagnostic → σ → σ) (s : σ) (ops : List (TreeOperation α σ))
    (home : Symbol → Container)
    (hnames : HaveUniformNames ((ops.filterMap (·.container?)).flatMap (·.namespaces)))
    (htypes : AreUniform ((ops.filterMap (·.container?)).flatMap (·.types)))
    (hhome : ∀ c m accept, .insert c m accept ∈ ops → home m = c) :
    let r := TreeOperation.runAll report (empty pass) s ops
    IsPrinted p home (r.1.filterMap TreeEvent.entry?) r.2.1.entries (r.2.1.fragments p) := by
  have hhoused := (Housed.empty home (ops.filterMap (·.container?)) pass).runAll hnames htypes .nil
    (reflects_empty _ pass) report s ops fun c m accept hmem =>
      ⟨List.mem_filterMap.2 ⟨_, hmem, rfl⟩, hhome c m accept hmem⟩
  simp only [List.nil_append] at hhoused
  exact hhoused.isPrinted hp

/-- The operation that stores a text property. -/
def insertProperty (number : Nat) (c : Container) : TreeOperation EvaluatedConstant Unit :=
  let target : Member :=
    { id := ⟨number⟩
      name := "Text"
      form := .property true false
      modifiers := [.staticMember, .partialMember]
      hasBody := false
      params := []
      typeParams := []
      returnType := ⟨"string", .string, false⟩
      returnPassing := .byValue
      container := c
      location := none
      marker := none }
  .insert c target.id fun s => (some ⟨⟨none, [], .invariant, target, true, none, none⟩, ""⟩, s)

/-- Properties in nested types, in namespaces of which one holds only the other, and in the global
namespace. -/
def scatteredProperties : List (Nat × Container) :=
  let foo : Namespace := ⟨⟨0⟩, "Foo"⟩
  let bar : Namespace := ⟨⟨1⟩, "Bar"⟩
  let baz : Namespace := ⟨⟨2⟩, "Baz"⟩
  let consts : EnclosingType := ⟨⟨3⟩, "Consts", .classType, [], true, none⟩
  let inner : EnclosingType := ⟨⟨4⟩, "Inner", .structType, ["T"], true, none⟩
  let limits : EnclosingType := ⟨⟨5⟩, "Limits", .classType, [], true, none⟩
  [(6, ⟨[foo, bar, baz], [consts, inner]⟩), (7, ⟨[foo, bar, baz], [consts]⟩), (8, ⟨[], [limits]⟩),
    (9, ⟨[foo, bar], [limits]⟩), (10, ⟨[foo, bar, baz], [consts]⟩)]

theorem isPrinted_scatteredProperties :
    let ops := scatteredProperties.map (fun (n, c) => insertProperty n c) ++ [.prune]
    let home := fun m => ((scatteredProperties.map fun (n, c) => (Symbol.mk n, c)).lookup m).getD {}
    let p := EvaluatedConstant.printer .default
    let r := TreeOperation.runAll (fun _ s => s) (empty .constants) () ops
    let bar := "namespace Foo.Bar"
    let consts := [bar, "namespace Baz", "partial class Consts"]
    p.IsCSharp ∧ HaveUniformNames ((ops.filterMap (·.container?)).flatMap (·.namespaces)) ∧
    AreUniform ((ops.filterMap (·.container?)).flatMap (·.types)) ∧
    (∀ c m accept, .insert c m accept ∈ ops → home m = c) ∧
    IsPrinted p home (r.1.filterMap TreeEvent.entry?) r.2.1.entries (r.2.1.fragments p) ∧
    (Fragment.itemsAll [] (r.2.1.fragments p)).map (·.1) = [["partial class Limits"],
      [bar, "partial class Limits"], consts, consts, consts ++ ["partial struct Inner<T>"]] := by
  intro ops home p r bar consts
  have hp : p.IsCSharp := .constants .default
  have hnames : HaveUniformNames ((ops.filterMap (·.container?)).flatMap (·.namespaces)) := by
    decide
  have htypes : AreUniform ((ops.filterMap (·.container?)).flatMap (·.types)) := by decide
  have hhome : ∀ c m accept, .insert c m accept ∈ ops → home m = c := by
    intro c m accept h
    simp only [ops, scatteredProperties, insertProperty, List.map_cons, List.map_nil,
      List.cons_append, List.nil_append, List.mem_cons, List.not_mem_nil,
      TreeOperation.insert.injEq, reduceCtorEq, or_false] at h
    rcases h with ⟨rfl, rfl, -⟩ | ⟨rfl, rfl, -⟩ | ⟨rfl, rfl, -⟩ | ⟨rfl, rfl, -⟩ | ⟨rfl, rfl, -⟩ <;>
      decide
  exact ⟨hp, hnames, htypes, hhome,
    isPrinted_runAll hp .constants (fun _ s => s) () ops home hnames htypes hhome, by decide⟩

/-- A namespace without a name has a header, although the path of its members is empty. -/
theorem headers_of_unnamedNamespace :
    let c : Container := ⟨[⟨⟨0⟩, ""⟩], [⟨⟨1⟩, "Sdl", .classType, [], true, none⟩]⟩
    let r := TreeOperation.runAll (fun _ s => s) (empty .constants) () [insertProperty 2 c]
    HaveUniformNames c.namespaces ∧ AreUniform c.types ∧ r.2.1.entries.map (·.1) = [⟨2⟩] ∧
    c.namespacePath = "" ∧
    (Fragment.itemsAll [] (r.2.1.fragments (EvaluatedConstant.printer .default))).map (·.1) =
      [["namespace ", "partial class Sdl"]] := by
  decide

end DeclarationTree
end NativeBindings
