import Mathlib
import NativeBindings.Proofs.CSharp.TreePrinting
import NativeBindings.Proofs.Declaration.ContainerNames
import NativeBindings.Proofs.Manifest.Declarations
import NativeBindings.Proofs.Passes.Enclosure

/-!
# Headers of blocks

The headers of generated blocks are made of the names of namespaces and types around the members of
a manifest. In a valid manifest these are names of the language, but for types that are nested by a
key with a point behind a plus sign.

## Main definitions

- `Container.IsNamed` — a container in which everything has a name of the language
- `IsNamedHeader` — a header that is made of such names

## Main statements

- `Generator.isNamed_iff_hasPlainNesting` — which members have such containers, and what headers
  stand above the members of both units
-/

namespace NativeBindings

/-! ## Names in containers -/

/-- The name of the type and those of its parameters are names of the language. -/
structure EnclosingType.IsNamed (t : EnclosingType) : Prop where
  name : Identifier.isValid t.name.toList = true
  typeParams : ∀ p ∈ t.typeParams, Identifier.isValid p.toList = true

/-- All names around the members are names of the language. -/
structure Container.IsNamed (c : Container) : Prop where
  namespaces : ∀ ns ∈ c.namespaces, Identifier.isValid ns.name.toList = true
  types : ∀ type ∈ c.types, type.IsNamed

theorem TypeTable.get?_mem {ts : TypeTable} {key : String} {t : DeclaredType}
    (h : ts.get? key = some t) : (key, t) ∈ ts := by
  obtain ⟨entry, hfind, rfl⟩ := Option.map_eq_some_iff.1 h
  have hkey := List.find?_some hfind
  rw [beq_iff_eq] at hkey
  exact hkey ▸ List.mem_of_find?_eq_some hfind

/-- The type parameters of a valid manifest have names. -/
theorem Manifest.IsValid.typeParams {m : Manifest} (h : m.IsValid) (key : String) :
    ∀ p ∈ ((m.types.get? key).getD {}).typeParams, Identifier.isValid p.toList = true := by
  cases ht : m.types.get? key with
  | none => exact List.forall_mem_nil _
  | some t => exact (h.types (key, t) (TypeTable.get?_mem ht)).2

namespace Container

variable {m : Manifest} {c : Container} {key : List Char}

/-- Namespaces and the outermost type have names of the language. -/
structure IsNamedOutside (c : Container) : Prop where
  namespaces : ∀ ns ∈ c.namespaces, Identifier.isValid ns.name.toList = true
  outermost : ∀ type ∈ c.types.head?, type.IsNamed

theorem IsNamedBy.isNamedOutside (h : c.IsNamedBy m (.ofKey key)) (hm : m.IsValid)
    (hkey : ∀ part ∈ keyParts key, Identifier.isValid part = true) : c.IsNamedOutside where
  namespaces := by
    intro ns hns
    refine (ContainerNames.isCheckedBy_ofKey hkey).namespaces _ ?_
    rw [← h.namespaces]
    exact List.mem_map_of_mem hns
  outermost := by
    intro type htype
    obtain ⟨typeKey, hparams⟩ := h.typeParams type (List.mem_of_head? htype)
    refine ⟨?_, hparams ▸ hm.typeParams typeKey⟩
    have houtermost := congrArg List.head? h.types
    rw [List.head?_map, Option.mem_def.1 htype] at houtermost
    have hname : type.name = (ContainerNames.ofKey key).outermost := Option.some.inj houtermost
    exact hname ▸ (ContainerNames.isCheckedBy_ofKey hkey).outermost

theorem IsNamedBy.isNamed_iff (h : c.IsNamedBy m (.ofKey key)) (hm : m.IsValid)
    (hkey : ∀ part ∈ keyParts key, Identifier.isValid part = true) :
    c.IsNamed ↔ HasPlainNesting key := by
  have hchecked := ContainerNames.isCheckedBy_ofKey hkey
  rw [← hchecked.nested_iff]
  constructor
  · intro hnamed name hname
    have hmem : name ∈ c.types.map (·.name) := by
      rw [h.types]
      exact List.mem_cons_of_mem _ hname
    obtain ⟨type, htype, rfl⟩ := List.mem_map.1 hmem
    exact (hnamed.types type htype).name
  · intro hnested
    refine ⟨(h.isNamedOutside hm hkey).namespaces, fun type htype => ?_⟩
    obtain ⟨typeKey, hparams⟩ := h.typeParams type htype
    refine ⟨?_, hparams ▸ hm.typeParams typeKey⟩
    have hmem : type.name ∈ (ContainerNames.ofKey key).types := by
      rw [← h.types]
      exact List.mem_map_of_mem htype
    rcases List.mem_cons.1 hmem with houtermost | hmem
    · exact houtermost ▸ hchecked.outermost
    · exact hnested _ hmem

end Container

/-! ## Headers -/

/-- The header names namespaces or a type, and every name in it is one of the language. -/
inductive IsNamedHeader : String → Prop where
  | namespaces (name : String) (h : ∀ part ∈ segments '.' name.toList, Identifier.isValid part = true) :
    IsNamedHeader (namespaceHeader name)
  | type (t : EnclosingType) (h : t.IsNamed) : IsNamedHeader t.partialHeader

/-- The names in the path of named namespaces are those of the namespaces. -/
theorem Container.segments_namespacePath {c : Container} (hne : c.namespaces ≠ [])
    (h : ∀ ns ∈ c.namespaces, Identifier.isValid ns.name.toList = true) :
    segments '.' c.namespacePath.toList = c.namespaces.map (·.name.toList) := by
  rw [namespacePath, toList_joined (c := '.') rfl, List.map_map, segments_joinSegments]
  · rfl
  · simpa using hne
  · simp only [List.mem_map, Function.comp_apply, forall_exists_index, and_imp,
      forall_apply_eq_imp_iff₂]
    exact fun ns hns =>
      Identifier.notMem_of_isPart_eq_false (h ns hns) (by decide) (by decide +kernel)

/-- A header above the members of a container names some of its namespaces or one of its types. -/
theorem Container.IsHeadedBy.header_cases {c : Container} {headers : List String}
    (h : c.IsHeadedBy headers)
    (hnamed : ∀ ns ∈ c.namespaces, Identifier.isValid ns.name.toList = true) :
    ∀ header ∈ headers,
      IsNamedHeader header ∨ ∃ type ∈ c.types, header = type.partialHeader := by
  obtain ⟨names, hpath, hnil, rfl⟩ := h
  intro header hheader
  rcases List.mem_append.1 hheader with hheader | hheader
  · obtain ⟨name, hname, rfl⟩ := List.mem_map.1 hheader
    have hne : names ≠ [] := List.ne_nil_of_mem hname
    have hparts := c.segments_namespacePath (fun hns => hne (hnil.2 hns)) hnamed
    rw [← hpath, toList_joined (c := '.') rfl,
      segments_joinSegments_of_ne_nil (by simpa using hne)] at hparts
    refine .inl (.namespaces name fun part hpart => ?_)
    have hmem : part ∈ c.namespaces.map (·.name.toList) := by
      rw [← hparts]
      exact List.mem_flatMap.2 ⟨name.toList, List.mem_map_of_mem hname, hpart⟩
    obtain ⟨ns, hns, rfl⟩ := List.mem_map.1 hmem
    exact hnamed ns hns
  · obtain ⟨type, htype, rfl⟩ := List.mem_map.1 hheader
    exact .inr ⟨type, htype, rfl⟩

/-- Where all members stand in named namespaces, each header is made of names or belongs to a type
around one of the members. -/
theorem header_cases_of_isWithin {α : Type} {members : List Member} {t : DeclarationTree α}
    {p : TreePrinter α} (hp : p.IsCSharp) (h : t.IsWithin members)
    (hnamed : ∀ ns ∈ enclosingNamespaces members, Identifier.isValid ns.name.toList = true) :
    ∀ item ∈ Fragment.itemsAll [] (t.fragments p), ∀ header ∈ item.1,
      IsNamedHeader header ∨ ∃ type ∈ enclosingTypes members, header = type.partialHeader := by
  intro item hitem header hheader
  obtain ⟨x, hx, -, hheaded⟩ := exists_of_mem_of_forall₂ (t.items_fragments_emitted hp) hitem
  obtain ⟨hnamespaces, htypes⟩ := h.of_mem_located hx
  have hcases := hheaded.header_cases (fun ns hns => hnamed ns (hnamespaces hns)) header hheader
  exact hcases.imp_right fun ⟨type, htype, heq⟩ => ⟨type, htypes htype, heq⟩

theorem Manifest.IsValid.exists_isNamedOutside {m : Manifest} (hvalid : m.IsValid) :
    ∃ d, m.declarations = .ok d ∧ ∀ a ∈ d.members, a.container.IsNamedOutside ∧
      (a.container.IsNamed ↔ HasPlainNesting a.container.key.toList) := by
  let R (_ : SymbolTable) (entry : Span × MemberEntry) (a : Member) : Prop :=
    a.container.key = entry.2.container ∧ a.container.IsNamedBy m (.ofKey entry.2.container.toList)
  have hR : m.HoldsOfMembers R := by
    intro place e returnType params _ _ _
    refine ((interns_containerOf m e.container).and (interns_containerOf_named m e.container)).bind
      fun container => (Manifest.interns_markerOf m e).bind fun marker =>
        (Interns.internKey (Manifest.memberKey e)).bind fun id => Interns.pure fun t _ _ hcontainer => ?_
    exact ⟨hcontainer.1.key_eq, hcontainer.2⟩
  obtain ⟨d, hd, -, hmembers⟩ := hvalid.exists_declarations hR
  refine ⟨d, hd, fun a ha => ?_⟩
  obtain ⟨entry, hentry, hkey, hnamed⟩ := exists_of_mem_of_forall₂ hmembers ha
  have hparts := (hvalid.members entry hentry).container
  rw [hkey]
  exact ⟨hnamed.isNamedOutside hvalid hparts, hnamed.isNamed_iff hvalid hparts⟩

namespace Generator

/-- The headers above the members in both units. -/
def headers (g : Generator) : List String :=
  (Fragment.itemsAll [] (g.importsPass.tree.fragments (Binding.printer g.tool)) ++
    Fragment.itemsAll [] (g.constantsPass.tree.fragments (EvaluatedConstant.printer g.tool))).flatMap
      (·.1)

/-- In a valid manifest namespaces and outermost types have names of the language, and all types
around a member have exactly if no point stands behind a plus sign of their key. Only the headers of
types that are nested in another way are not made of names. -/
theorem isNamed_iff_hasPlainNesting {m : Manifest} (h : m.validate = .ok ()) :
    ∃ d, m.declarations = .ok d ∧
      (∀ a ∈ d.members, a.container.IsNamedOutside ∧
        (a.container.IsNamed ↔ HasPlainNesting a.container.key.toList)) ∧
      ∀ header ∈ (ofManifest m d).headers, IsNamedHeader header ∨
        ∃ a ∈ d.members, ¬ HasPlainNesting a.container.key.toList ∧
          ∃ type ∈ a.container.types, header = type.partialHeader := by
  obtain ⟨d, hd, hmembers⟩ := (Manifest.validate_eq_ok_iff.1 h).exists_isNamedOutside
  refine ⟨d, hd, hmembers, fun header hheader => ?_⟩
  have hnamed : ∀ ns ∈ enclosingNamespaces d.members, Identifier.isValid ns.name.toList = true := by
    intro ns hns
    obtain ⟨a, ha, hns⟩ := List.mem_flatMap.1 hns
    exact (hmembers a ha).1.namespaces ns hns
  have hcases : IsNamedHeader header ∨
      ∃ type ∈ enclosingTypes d.members, header = type.partialHeader := by
    obtain ⟨item, hitem, hheader⟩ := List.mem_flatMap.1 hheader
    rcases List.mem_append.1 hitem with hitem | hitem
    · exact header_cases_of_isWithin (.bindings _) (ImportsPass.isWithin_run d.compilation _ _ _)
        hnamed item hitem header hheader
    · exact header_cases_of_isWithin (.constants _) (ConstantsPass.isWithin_run d.compilation _ _)
        hnamed item hitem header hheader
  rcases hcases with hcase | ⟨type, htype, rfl⟩
  · exact .inl hcase
  · obtain ⟨a, ha, htype⟩ := List.mem_flatMap.1 htype
    by_cases hplain : HasPlainNesting a.container.key.toList
    · exact .inl (.type type (((hmembers a ha).2.2 hplain).types type htype))
    · exact .inr ⟨a, ha, hplain, type, htype, rfl⟩

/-- A manifest with one constant in a container. -/
def nestedSource (container : String) : SourceText :=
  ⟨("[[members]]\ncontainer = \"" ++ container ++
    "\"\nname = \"N\"\nreturns = \"string\"\nconstant.format = \"v\"\n").toList, "natbind.toml"⟩

/-- What such a manifest says. -/
def nestedManifest (container : String) : Manifest where
  source := nestedSource container
  generator := {}
  compilation := {}
  types := []
  members :=
    [(⟨0, 11⟩,
      { container
        name := "N"
        kind := .method
        modifiers := [.internalAccess, .staticMember, .partialMember]
        returns := "string"
        returnPassing := .byValue
        params := []
        typeParams := []
        hasBody := false
        hasGet := true
        hasSet := false
        symbol := none
        function := none
        constant := some ⟨some "v", [], .number 0⟩ })]

/-- The names of the types around all members, and all headers. -/
def typeNamesAndHeaders (g : Generator) : List String × List String :=
  ((enclosingTypes g.members).map (·.name), g.headers)

theorem isNamed_iff_hasPlainNesting_nested :
    let m := nestedManifest "Foo.Bar.A+B+C"
    let headers := ["namespace Foo.Bar", "partial class A", "partial class B", "partial class C"]
    m.validate = .ok () ∧ ∃ d, m.declarations = .ok d ∧
      (enclosingTypes d.members).map (·.name) = ["A", "B", "C"] ∧
      (ofManifest m d).headers = headers ∧
      (∀ a ∈ d.members, a.container.IsNamedOutside ∧
        (a.container.IsNamed ↔ HasPlainNesting a.container.key.toList)) ∧
      ∀ header ∈ headers, IsNamedHeader header ∨
        ∃ a ∈ d.members, ¬ HasPlainNesting a.container.key.toList ∧
          ∃ type ∈ a.container.types, header = type.partialHeader := by
  intro m headers
  have hvalid : m.validate = .ok () := by decide +kernel
  obtain ⟨d, hd, hsaid⟩ := exists_ofManifest typeNamesAndHeaders m (["A", "B", "C"], headers)
    (by decide +kernel)
  obtain ⟨d', hd', hmembers, hnamed⟩ := isNamed_iff_hasPlainNesting hvalid
  obtain rfl := Except.ok.inj (hd.symm.trans hd')
  have hheaders : (ofManifest m d).headers = headers := congrArg Prod.snd hsaid
  rw [hheaders] at hnamed
  exact ⟨hvalid, d, hd, congrArg Prod.fst hsaid, hheaders, hmembers, hnamed⟩

/-- A point behind a plus sign becomes part of the name of a type and of a header. -/
theorem exists_not_isNamed :
    ∃ g, Generator.parse (nestedSource "A+B.C") = .ok g ∧
      ∃ a ∈ g.members, ∃ type ∈ a.container.types, Identifier.isValid type.name.toList = false ∧
        "partial class " ++ type.name ∈ g.headers := by
  have hread : Manifest.read? (nestedSource "A+B.C") = some (nestedManifest "A+B.C") := by
    unfold nestedManifest nestedSource
    simp only [String.toList_append]
    rw [toList_literal rfl, toList_literal rfl, toList_literal rfl]
    cbv
  obtain ⟨g, hparse, hsaid⟩ := exists_parse_of_read typeNamesAndHeaders _ _
    (["A", "B.C"], ["partial class A", "partial class B.C"]) hread
    (by decide +kernel) (by decide +kernel)
  have hnames : (enclosingTypes g.members).map (·.name) = ["A", "B.C"] := congrArg Prod.fst hsaid
  have hheaders : g.headers = ["partial class A", "partial class B.C"] := congrArg Prod.snd hsaid
  have hmem : "B.C" ∈ (enclosingTypes g.members).map (·.name) := by
    rw [hnames]
    decide
  obtain ⟨type, htype, hname⟩ := List.mem_map.1 hmem
  obtain ⟨a, ha, htype⟩ := List.mem_flatMap.1 htype
  refine ⟨g, hparse, a, ha, type, htype, ?_, ?_⟩
  · rw [hname]
    decide +kernel
  · rw [hname, hheaders]
    decide

end Generator
end NativeBindings
