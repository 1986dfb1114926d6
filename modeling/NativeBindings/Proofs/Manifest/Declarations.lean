import NativeBindings.Manifest.Generator
import NativeBindings.Proofs.Declaration.ContainerKey
import NativeBindings.Proofs.Manifest.MemberKey
import NativeBindings.Proofs.Manifest.NamedTypes

/-!
# Declared members

A valid manifest can be turned into declarations. Each entry becomes one member with what the entry
says, and members, namespaces and types are the same exactly if their keys are.

## Main definitions

- `Manifest.Declares` — a member with what an entry says
- `Manifest.IsFaithful` — the declarations of a manifest

## Main statements

- `Manifest.interns_member` — the member of a valid entry
- `Manifest.exists_declareAll` — the members of valid entries, from any table
- `Manifest.IsValid.exists_declarations` — what holds of members when they are interned holds of all
- `Manifest.faithful_declarations` — a valid manifest has faithful declarations
- `Manifest.parse_eq_ok_iff` — which texts are manifests
-/

namespace NativeBindings
namespace Manifest

variable {m : Manifest} {place : Span} {e : MemberEntry}

/-- The parameter has the type for which the text in its entry stands. -/
structure DeclaresParam (scope : TypeScope) (p : ParamEntry) (declared : Param) : Prop where
  name : declared.name = p.name
  type : scope.resolve? p.type.toList = some declared.type
  passing : declared.passing = p.passing
  defaultValue : declared.defaultValue = p.defaultValue

/-- The member says what its entry says, and its symbols are those of its keys. -/
structure Declares (m : Manifest) (symbols : SymbolTable) (entry : Span × MemberEntry)
    (declared : Member) : Prop where
  id : symbols.get? (memberKey entry.2) = some declared.id
  container : declared.container.Spells symbols entry.2.container
  name : declared.name = entry.2.name
  form : declared.form =
    if entry.2.kind = .property then .property entry.2.hasGet entry.2.hasSet else .method
  modifiers : declared.modifiers = entry.2.modifiers
  hasBody : declared.hasBody = entry.2.hasBody
  typeParams : declared.typeParams = entry.2.typeParams
  params : List.Forall₂ (DeclaresParam (m.scope entry.2)) entry.2.params declared.params
  returnType : (m.scope entry.2).resolve? entry.2.returns.toList = some declared.returnType
  returnPassing : declared.returnPassing = entry.2.returnPassing
  location : declared.location = m.source.location? entry.1.start

/-- The declarations belong to the entries of the manifest in their order. No two members have one
symbol, and namespaces and types have one exactly if the containers agree up to them. -/
structure IsFaithful (m : Manifest) (d : Declarations) : Prop where
  compilation : d.compilation = m.compilation.compilation
  members : List.Forall₂ (m.Declares d.symbols) m.members d.members
  nodup_ids : (d.members.map (·.id)).Nodup
  namespace_id_eq_iff : ∀ a ∈ d.members, ∀ b ∈ d.members, ∀ i j ns ns',
    a.container.namespaces[i]? = some ns → b.container.namespaces[j]? = some ns' →
    (ns.id = ns'.id ↔ a.container.namespaceKey (i + 1) = b.container.namespaceKey (j + 1))
  type_id_eq_iff : ∀ a ∈ d.members, ∀ b ∈ d.members, ∀ i j type type',
    a.container.types[i]? = some type → b.container.types[j]? = some type' →
    (type.id = type'.id ↔ a.container.typeKey (i + 1) = b.container.typeKey (j + 1))
  namespace_id_ne_type_id : ∀ a ∈ d.members, ∀ b ∈ d.members, ∀ ns ∈ a.container.namespaces,
    ∀ type ∈ b.container.types, ns.id ≠ type.id

/-! ## Members -/

theorem typeUse_eq_ok {type : String} {role : TypeRole} {use : TypeUse}
    (h : (m.scope e).resolve? type.toList = some use) : m.typeUse place e type role = .ok use := by
  rw [typeUse, h]
  rfl

theorem exists_params (place : Span) {ps : List ParamEntry}
    (h : ∀ p ∈ ps, ((m.scope e).resolve? p.type.toList).isSome = true) :
    ∃ params, ps.mapM (m.param place e) = .ok params ∧
      List.Forall₂ (DeclaresParam (m.scope e)) ps params := by
  induction ps with
  | nil => exact ⟨[], rfl, .nil⟩
  | cons p ps ih =>
    rw [List.forall_mem_cons] at h
    obtain ⟨use, huse⟩ := Option.isSome_iff_exists.1 h.1
    obtain ⟨params, hparams, hall⟩ := ih h.2
    have hparam : m.param place e p = .ok ⟨p.name, use, p.passing, p.defaultValue⟩ := by
      rw [param, typeUse_eq_ok huse]
      rfl
    refine ⟨⟨p.name, use, p.passing, p.defaultValue⟩ :: params, ?_, .cons ⟨rfl, huse, rfl, rfl⟩ hall⟩
    rw [List.mapM_cons, hparam, hparams]
    rfl

theorem interns_member (place : Span) {returnType : TypeUse} {params : List Param}
    (hreturns : (m.scope e).resolve? e.returns.toList = some returnType)
    (hparams : List.Forall₂ (DeclaresParam (m.scope e)) e.params params) :
    Interns (m.member place e returnType params) fun t declared =>
      m.Declares t (place, e) declared := by
  refine (interns_containerOf m e.container).bind fun container =>
    (interns_markerOf m e).bind fun marker => (Interns.internKey (memberKey e)).bind fun id =>
      Interns.pure fun t hid _ hcontainer => ?_
  exact ⟨hid, hcontainer, rfl, rfl, rfl, rfl, rfl, hparams, hreturns, rfl, rfl⟩

/-- A property that the members of valid entries have from when their keys are interned. -/
def HoldsOfMembers (m : Manifest) (R : SymbolTable → Span × MemberEntry → Member → Prop) : Prop :=
  ∀ (place : Span) {e returnType params}, (m.scope e).resolve? e.returns.toList = some returnType →
    List.Forall₂ (DeclaresParam (m.scope e)) e.params params →
    e.IsValid (m.scope e) →
    Interns (m.member place e returnType params) fun t declared => R t (place, e) declared

theorem holdsOfMembers_declares (m : Manifest) : m.HoldsOfMembers m.Declares :=
  fun place _ _ _ hreturns hparams _ => interns_member place hreturns hparams

/-- The first of some members is declared before the others are. -/
theorem declareAll_cons {place : Span} {e : MemberEntry} {entries : List (Span × MemberEntry)}
    {returnType : TypeUse} {params : List Param} {declared : Member} {members : List Member}
    {t after t' : SymbolTable} (hreturns : m.typeUse place e e.returns .result = .ok returnType)
    (hparams : e.params.mapM (m.param place e) = .ok params)
    (hmember : m.member place e returnType params t = (declared, after))
    (hrest : m.declareAll entries after = .ok (members, t')) :
    m.declareAll ((place, e) :: entries) t = .ok (declared :: members, t') := by
  rw [declareAll, hreturns, hparams]
  simp only [bind, Except.bind, hmember, hrest]

/-- Valid entries can be declared, and tables only grow on the way. -/
theorem exists_declareAll {R : SymbolTable → Span × MemberEntry → Member → Prop}
    (hR : m.HoldsOfMembers R) {entries : List (Span × MemberEntry)}
    (h : ∀ entry ∈ entries, entry.2.IsValid (m.scope entry.2)) (t : SymbolTable) :
    ∃ members t', m.declareAll entries t = .ok (members, t') ∧ t.Extends t' ∧
      ∀ t'', t'.Extends t'' → List.Forall₂ (R t'') entries members := by
  induction entries generalizing t with
  | nil => exact ⟨[], t, rfl, .refl t, fun _ _ => .nil⟩
  | cons entry entries ih =>
    obtain ⟨place, e⟩ := entry
    rw [List.forall_mem_cons] at h
    obtain ⟨returnType, hreturns⟩ := Option.isSome_iff_exists.1 h.1.returns
    obtain ⟨params, hparams, hall⟩ := exists_params place h.1.paramTypes
    have hmember := hR place hreturns hall h.1 t
    unfold StateT.run at hmember
    generalize hresult : m.member place e returnType params t = result at hmember
    obtain ⟨declared, after⟩ := result
    obtain ⟨hextends, hdeclares⟩ := hmember
    obtain ⟨members, t', hrest, hextends', hmembers⟩ := ih h.2 after
    exact ⟨declared :: members, t', declareAll_cons (typeUse_eq_ok hreturns) hparams hresult hrest,
      hextends.trans hextends', fun t'' ht'' =>
        .cons (hdeclares t'' (hextends'.trans ht'')) (hmembers t'' ht'')⟩

/-! ## Declarations -/

theorem nodup_ids_of_declares {symbols : SymbolTable} {members : List Member} (hvalid : m.IsValid)
    (h : List.Forall₂ (m.Declares symbols) m.members members) : (members.map (·.id)).Nodup := by
  have hkeys : m.members.map (fun entry => symbols.get? (memberKey entry.2)) =
      (members.map (·.id)).map some := by
    rw [List.map_map]
    exact map_eq_map_of_forall₂ (h.imp fun _ _ hdeclares => hdeclares.id)
  refine List.Nodup.of_map some ?_
  rw [← hkeys]
  refine List.pairwise_map.2 ((List.pairwise_map.1 hvalid.nodup_signatures).imp_of_mem ?_)
  intro a b ha hb hne heq
  obtain ⟨declared, -, hdeclares⟩ := exists_of_mem_of_forall₂ h.flip ha
  have hkey := SymbolTable.get?_inj hdeclares.id (heq ▸ hdeclares.id)
  exact hne ((hvalid.members a ha).signature_eq (hvalid.members b hb) hkey)

theorem IsValid.exists_declarations (hvalid : m.IsValid)
    {R : SymbolTable → Span × MemberEntry → Member → Prop} (hR : m.HoldsOfMembers R) :
    ∃ d, m.declarations = .ok d ∧ d.compilation = m.compilation.compilation ∧
      List.Forall₂ (R d.symbols) m.members d.members := by
  obtain ⟨members, symbols, hdeclareAll, -, hmembers⟩ := exists_declareAll hR hvalid.members .empty
  refine ⟨⟨m.compilation.compilation, members, symbols⟩, ?_, rfl, hmembers symbols (.refl symbols)⟩
  rw [declarations, hdeclareAll]
  rfl

theorem IsValid.exists_isFaithful (hvalid : m.IsValid) :
    ∃ d, m.declarations = .ok d ∧ m.IsFaithful d := by
  obtain ⟨⟨compilation, members, symbols⟩, hd, hcompilation, hmembers⟩ :=
    hvalid.exists_declarations (holdsOfMembers_declares m)
  have hspells : ∀ a ∈ members, ∃ text, a.container.Spells symbols text := by
    intro a ha
    obtain ⟨entry, -, hentry⟩ := exists_of_mem_of_forall₂ hmembers ha
    exact ⟨_, hentry.container⟩
  refine ⟨⟨compilation, members, symbols⟩, hd, hcompilation, hmembers,
    nodup_ids_of_declares hvalid hmembers, ?_, ?_, ?_⟩
  · intro a ha b hb i j ns ns' hns hns'
    obtain ⟨_, hspellsA⟩ := hspells a ha
    obtain ⟨_, hspellsB⟩ := hspells b hb
    exact SymbolTable.eq_iff_of_get?_append (hspellsA.get?_namespace i ns hns)
      (hspellsB.get?_namespace j ns' hns')
  · intro a ha b hb i j type type' htype htype'
    obtain ⟨_, hspellsA⟩ := hspells a ha
    obtain ⟨_, hspellsB⟩ := hspells b hb
    exact SymbolTable.eq_iff_of_get?_append (hspellsA.get?_type i type htype)
      (hspellsB.get?_type j type' htype')
  · intro a ha b hb ns hns type htype heq
    obtain ⟨_, hspellsA⟩ := hspells a ha
    obtain ⟨_, hspellsB⟩ := hspells b hb
    obtain ⟨i, hi⟩ := List.mem_iff_getElem?.1 hns
    obtain ⟨j, hj⟩ := List.mem_iff_getElem?.1 htype
    have hkeys := SymbolTable.get?_inj (hspellsA.get?_namespace i ns hi)
      (heq ▸ hspellsB.get?_type j type hj)
    exact append_ne_append_of_length_eq (p := "N:") (q := "T:") (by decide) (by decide) _ _ hkeys

/-- A manifest without faults can be declared, and its declarations are those of its entries. -/
theorem faithful_declarations (h : m.validate = .ok ()) :
    ∃ d, m.declarations = .ok d ∧ m.IsFaithful d :=
  (validate_eq_ok_iff.1 h).exists_isFaithful

/-- Overloads in a type and in a type nested in it. -/
def nestedOverloads : Manifest :=
  let method (container : String) (types : List String) : MemberEntry :=
    { container
      name := "Init"
      kind := .method
      modifiers := [.staticMember, .partialMember]
      returns := "int"
      returnPassing := .byValue
      params := types.map fun type => ⟨"value", type, .byValue, none⟩
      typeParams := []
      hasBody := false
      hasGet := false
      hasSet := false
      symbol := none
      function := some ⟨⟨none, none, none⟩, []⟩
      constant := none }
  { source := ⟨[], "natbind.toml"⟩
    generator := {}
    compilation := {}
    types := [("Demo.Sdl", {}), ("Demo.Sdl+Keys", {})]
    members := [method "Demo.Sdl" ["uint"], method "Demo.Sdl+Keys" ["uint"],
      method "Demo.Sdl+Keys" ["ReadOnlySpan<byte?>"]].map fun e => (⟨0, 0⟩, e) }

theorem faithful_declarations_nestedOverloads :
    nestedOverloads.validate = .ok () ∧
      ∃ d, nestedOverloads.declarations = .ok d ∧ nestedOverloads.IsFaithful d := by
  have h : nestedOverloads.validate = .ok () := by decide +kernel
  exact ⟨h, faithful_declarations h⟩

end Manifest

/-- A text is a manifest if it can be read and what it says has no fault. -/
theorem Manifest.parse_eq_ok_iff {source : SourceText} {m : Manifest} :
    Manifest.parse source = .ok m ↔ read? source = some m ∧ m.validate = .ok () := by
  unfold Manifest.parse
  cases hread : read? source with
  | none => exact iff_of_false nofun nofun
  | some m' =>
    dsimp only
    rw [Option.some.injEq]
    cases hvalidate : m'.validate with
    | error e =>
      refine iff_of_false nofun ?_
      rintro ⟨rfl, hvalid⟩
      cases hvalidate.symm.trans hvalid
    | ok =>
      constructor
      · intro h
        cases h
        exact ⟨rfl, hvalidate⟩
      · rintro ⟨rfl, -⟩
        rfl

/-- The characters of a literal text are those that it is written with. -/
theorem toList_literal {s : String} {cs : List Char} (h : s = String.ofList cs) : s.toList = cs := by
  rw [h, String.toList_ofList]

/-- Something that is said of the run over a manifest, which has declarations. -/
theorem Generator.exists_ofManifest {β : Type} (said : Generator → β) (m : Manifest) (value : β)
    (hsaid : m.declarations.toOption.map (fun d => said (ofManifest m d)) = some value) :
    ∃ d, m.declarations = .ok d ∧ said (ofManifest m d) = value := by
  cases hd : m.declarations with
  | error e =>
    rw [hd] at hsaid
    cases hsaid
  | ok d =>
    rw [hd] at hsaid
    exact ⟨d, rfl, Option.some.inj hsaid⟩

/-- The run over a manifest that is read from a text, with something that is said of the run. -/
theorem Generator.exists_parse_of_read {β : Type} (said : Generator → β) (source : SourceText)
    (m : Manifest) (value : β) (hread : Manifest.read? source = some m)
    (hvalid : m.validate = .ok ())
    (hsaid : m.declarations.toOption.map (fun d => said (ofManifest m d)) = some value) :
    ∃ g, Generator.parse source = .ok g ∧ said g = value := by
  obtain ⟨d, hd, hvalue⟩ := exists_ofManifest said m value hsaid
  refine ⟨ofManifest m d, ?_, hvalue⟩
  unfold Generator.parse
  rw [Manifest.parse_eq_ok_iff.2 ⟨hread, hvalid⟩]
  simp only [hd, bind, Except.bind]

end NativeBindings
