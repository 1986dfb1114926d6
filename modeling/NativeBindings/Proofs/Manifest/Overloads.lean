import Mathlib
import NativeBindings.Proofs.Manifest.Declarations
import NativeBindings.Proofs.Manifest.TypeNaming

/-!
# Overloads

Members with one container and one name are told apart by the texts of their parameter types. In
generated code they are told apart by the names of these types, and different texts can write types
with one name. This happens exactly if the texts write the same types, up to keys with the same
dotted name, and never where all types are written in the usual way.

## Main definitions

- `TypeScope.WritesPlainly` — a text that writes a type in the usual way
- `Manifest.TellsApart` — when the parameter types of two members have the same names

## Main statements

- `Manifest.tellsApart_of_validate` — this holds of all members of valid manifests
- `Generator.exists_repeatsSignature` — a valid manifest whose imports hold one signature twice
-/

namespace NativeBindings

/-- The texts of the parameter types. -/
def MemberEntry.typeTexts (e : MemberEntry) : List (List Char) := e.params.map (·.type.toList)

/-- The names of the parameter types in generated code. -/
def Member.paramTypeNames (m : Member) : List String := m.params.map (·.type.name)

/-- The text writes a type in the usual way, but for white space at its ends. -/
def TypeScope.WritesPlainly (scope : TypeScope) (s : List Char) : Prop :=
  ∃ t, scope.Writes s t ∧ trimBlank s = t.text.toList

namespace Manifest

variable {m : Manifest} {scope : TypeScope}

/-- Two members whose parameter types are written in different ways. The names of these types are
the same exactly if the texts write the same types, up to keys with the same dotted name; they
differ if dotted names tell keys apart and all types are written in the usual way. -/
structure TellsApart (m : Manifest) (e e' : MemberEntry) (a b : Member) : Prop where
  paramTypes_ne : e.paramTypes ≠ e'.paramTypes
  paramTypeNames_eq_iff : a.paramTypeNames = b.paramTypeNames ↔
    ∃ ts us, List.Forall₂ (m.scope e).Writes e.typeTexts ts ∧
      List.Forall₂ (m.scope e').Writes e'.typeTexts us ∧
      ts.map WrittenType.dotted = us.map WrittenType.dotted
  paramTypeNames_ne : m.types.HasDistinctNames →
    (∀ s ∈ e.typeTexts, (m.scope e).WritesPlainly s) →
    (∀ s ∈ e'.typeTexts, (m.scope e').WritesPlainly s) → a.paramTypeNames ≠ b.paramTypeNames

/-! ## Written parameter types -/

theorem IsValid.isValid_scope (h : m.IsValid) {e : MemberEntry} (he : e.IsValid (m.scope e)) :
    (m.scope e).IsValid where
  typeParams := he.typeParams
  keys := fun t ht => (h.types t ht).1

theorem exists_writes {params : List ParamEntry} {declared : List Param}
    (h : List.Forall₂ (DeclaresParam scope) params declared) :
    ∃ ts, List.Forall₂ scope.Writes (params.map (·.type.toList)) ts := by
  induction h with
  | nil => exact ⟨[], .nil⟩
  | cons hparam _ ih =>
    obtain ⟨ts, hts⟩ := ih
    obtain ⟨t, ht, -⟩ := TypeScope.exists_writes_of_resolve? hparam.type
    exact ⟨t :: ts, .cons ht hts⟩

/-- Whatever types the texts write, the names of the parameter types are theirs. -/
theorem map_name_eq_of_writes (hscope : scope.IsValid) {params : List ParamEntry}
    {declared : List Param} (h : List.Forall₂ (DeclaresParam scope) params declared)
    {ts : List WrittenType} (hts : List.Forall₂ scope.Writes (params.map (·.type.toList)) ts) :
    declared.map (·.type.name) = ts.map (·.name) := by
  induction h generalizing ts with
  | nil =>
    cases hts
    rfl
  | cons hparam _ ih =>
    cases hts with
    | cons ht hts =>
      obtain ⟨use, huse, hdescribes⟩ := ht.resolve?_eq_some hscope _ rfl
      have htype := Option.some.inj (hparam.type.symm.trans huse)
      rw [List.map_cons, List.map_cons, ih hts, htype, hdescribes.name]

theorem exists_plain {texts : List (List Char)} (h : ∀ s ∈ texts, scope.WritesPlainly s) :
    ∃ ts, List.Forall₂ scope.Writes texts ts ∧ texts.map trimBlank = ts.map (·.text.toList) := by
  induction texts with
  | nil => exact ⟨[], .nil, rfl⟩
  | cons s texts ih =>
    rw [List.forall_mem_cons] at h
    obtain ⟨t, ht, htext⟩ := h.1
    obtain ⟨ts, hts, htexts⟩ := ih h.2
    exact ⟨t :: ts, .cons ht hts, by rw [List.map_cons, List.map_cons, htext, htexts]⟩

theorem map_dotted_eq_iff {types : TypeTable} {ts us : List WrittenType}
    (hkeys : ∀ key ∈ types.map (·.1), ∀ c ∈ key.toList, TypeScope.IsKeyCharacter c)
    (hts : ∀ t ∈ ts, t.IsKnown types) (hus : ∀ u ∈ us, u.IsKnown types) :
    ts.map (·.name) = us.map (·.name) ↔
      ts.map WrittenType.dotted = us.map WrittenType.dotted := by
  induction ts generalizing us with
  | nil =>
    cases us with
    | nil => exact iff_of_true rfl rfl
    | cons u us => exact iff_of_false nofun nofun
  | cons t ts ih =>
    cases us with
    | nil => exact iff_of_false nofun nofun
    | cons u us =>
      rw [List.forall_mem_cons] at hts hus
      rw [List.map_cons, List.map_cons, List.map_cons, List.map_cons, List.cons.injEq,
        List.cons.injEq, ih hts.2 hus.2]
      refine and_congr_left fun _ => ⟨WrittenType.dotted_eq_of_name_eq hkeys hts.1 hus.1, ?_⟩
      intro hdotted
      rw [← WrittenType.name_dotted t, hdotted, WrittenType.name_dotted]

theorem forall_isKnown (hscope : scope.IsValid) {texts : List (List Char)} {ts : List WrittenType}
    (h : List.Forall₂ scope.Writes texts ts) : ∀ t ∈ ts, t.IsKnown scope.types := by
  intro t ht
  obtain ⟨s, -, hwrites⟩ := exists_of_mem_of_forall₂ h ht
  exact hwrites.isKnown hscope

theorem eq_of_map_dotted_eq {types : TypeTable} (hdistinct : types.HasDistinctNames)
    {ts us : List WrittenType} (hts : ∀ t ∈ ts, t.IsKnown types) (hus : ∀ u ∈ us, u.IsKnown types)
    (h : ts.map WrittenType.dotted = us.map WrittenType.dotted) : ts = us := by
  induction ts generalizing us with
  | nil => exact (List.map_eq_nil_iff.1 h.symm).symm
  | cons t ts ih =>
    cases us with
    | nil => cases h
    | cons u us =>
      rw [List.forall_mem_cons] at hts hus
      obtain ⟨hhead, htail⟩ := List.cons.inj h
      rw [WrittenType.eq_of_dotted_eq hdistinct hts.1 hus.1 hhead, ih hts.2 hus.2 htail]

/-! ## Members -/

variable {symbols : SymbolTable} {x y : Span × MemberEntry} {a b : Member}

theorem paramTypes_eq (e : MemberEntry) :
    e.paramTypes = (e.typeTexts.map trimBlank).map .ofList := by
  rw [MemberEntry.paramTypes, MemberEntry.typeTexts, List.map_map, List.map_map]
  rfl

/-- Entries with one container and one name have different texts for their parameter types. -/
theorem IsValid.paramTypes_ne (hvalid : m.IsValid) {i j : Nat} (hij : i ≠ j)
    (hx : m.members[i]? = some x) (hy : m.members[j]? = some y)
    (hcontainer : x.2.container = y.2.container) (hname : x.2.name = y.2.name) :
    x.2.paramTypes ≠ y.2.paramTypes := by
  intro htypes
  have hsignature : x.2.signature = y.2.signature := by
    rw [MemberEntry.signature, MemberEntry.signature, MemberEntry.display, MemberEntry.display,
      hcontainer, hname, htypes]
  have hi : (m.members.map (·.2.signature))[i]? = some x.2.signature := by
    rw [List.getElem?_map, hx, Option.map_some]
  have hj : (m.members.map (·.2.signature))[j]? = some x.2.signature := by
    rw [List.getElem?_map, hy, Option.map_some, hsignature]
  exact hij ((List.getElem?_inj (List.getElem?_eq_some_iff.1 hi).1 hvalid.nodup_signatures).1
    (hi.trans hj.symm))

theorem IsValid.tellsApart (hvalid : m.IsValid) (hx : x ∈ m.members) (hy : y ∈ m.members)
    (ha : m.Declares symbols x a) (hb : m.Declares symbols y b)
    (hne : x.2.paramTypes ≠ y.2.paramTypes) : m.TellsApart x.2 y.2 a b := by
  have hxscope := hvalid.isValid_scope (hvalid.members x hx)
  have hyscope := hvalid.isValid_scope (hvalid.members y hy)
  have hkeys : ∀ key ∈ m.types.map (·.1), ∀ c ∈ key.toList, TypeScope.IsKeyCharacter c :=
    fun key hkey => (hxscope.isKeyCharacter hkey).2
  have hiff {ts us : List WrittenType}
      (hts : List.Forall₂ (m.scope x.2).Writes x.2.typeTexts ts)
      (hus : List.Forall₂ (m.scope y.2).Writes y.2.typeTexts us) :
      a.paramTypeNames = b.paramTypeNames ↔
        ts.map WrittenType.dotted = us.map WrittenType.dotted := by
    rw [Member.paramTypeNames, Member.paramTypeNames, map_name_eq_of_writes hxscope ha.params hts,
      map_name_eq_of_writes hyscope hb.params hus]
    exact map_dotted_eq_iff hkeys (forall_isKnown hxscope hts) (forall_isKnown hyscope hus)
  refine ⟨hne, ⟨fun hnames => ?_, ?_⟩, fun hdistinct hxplain hyplain hnames => hne ?_⟩
  · obtain ⟨ts, hts⟩ := exists_writes ha.params
    obtain ⟨us, hus⟩ := exists_writes hb.params
    exact ⟨ts, us, hts, hus, (hiff hts hus).1 hnames⟩
  · rintro ⟨ts, us, hts, hus, hdotted⟩
    exact (hiff hts hus).2 hdotted
  · obtain ⟨ts, hts, hxtexts⟩ := exists_plain hxplain
    obtain ⟨us, hus, hytexts⟩ := exists_plain hyplain
    have heq := eq_of_map_dotted_eq hdistinct (forall_isKnown hxscope hts)
      (forall_isKnown hyscope hus) ((hiff hts hus).1 hnames)
    rw [paramTypes_eq, paramTypes_eq, hxtexts, hytexts, heq]

/-- Different members of a valid manifest that have one container and one name are told apart by how
their parameter types are written. -/
theorem tellsApart_of_validate (h : m.validate = .ok ()) :
    ∃ d, m.declarations = .ok d ∧
      ∀ (i j : Nat) (x y : Span × MemberEntry) (a b : Member), i ≠ j →
      m.members[i]? = some x → d.members[i]? = some a →
      m.members[j]? = some y → d.members[j]? = some b →
      a.container = b.container → a.name = b.name → m.TellsApart x.2 y.2 a b := by
  have hvalid := validate_eq_ok_iff.1 h
  obtain ⟨d, hd, hfaithful⟩ := hvalid.exists_isFaithful
  refine ⟨d, hd, fun i j x y a b hij hx ha hy hb hcontainer hname => ?_⟩
  obtain ⟨x', hx', hxa⟩ := exists_of_forall₂ hfaithful.members ha
  obtain ⟨y', hy', hyb⟩ := exists_of_forall₂ hfaithful.members hb
  cases hx.symm.trans hx'
  cases hy.symm.trans hy'
  refine hvalid.tellsApart (List.mem_of_getElem? hx) (List.mem_of_getElem? hy) hxa hyb ?_
  refine hvalid.paramTypes_ne hij hx hy ?_ ?_
  · rw [← hxa.container.key_eq, hcontainer, hyb.container.key_eq]
  · rw [← hxa.name, hname, hyb.name]

/-- Two functions with one parameter each; the type of the second one is given. -/
def overloadSource (type : String) : SourceText :=
  ⟨("types.L={}\n[[members]]\ncontainer=\"C\"\nname=\"F\"\n" ++
    "params=[\x7bname=\"p\",type=\"byte*\"\x7d]\nfunction.library=\"L\"\n" ++
    "[[members]]\ncontainer=\"C\"\nname=\"F\"\nparams=[\x7bname=\"p\",type=\"" ++ type ++
    "\"\x7d]\nfunction.library=\"L\"\n").toList, "natbind.toml"⟩

/-- What such a manifest says. -/
def overloadManifest (type : String) : Manifest :=
  let function (type : String) : MemberEntry :=
    { container := "C"
      name := "F"
      kind := .method
      modifiers := [.internalAccess, .staticMember, .partialMember]
      returns := "void"
      returnPassing := .byValue
      params := [⟨"p", type, .byValue, none⟩]
      typeParams := []
      hasBody := false
      hasGet := true
      hasSet := false
      symbol := none
      function := some ⟨⟨"L", none, none⟩, []⟩
      constant := none }
  { source := overloadSource type
    generator := {}
    compilation := {}
    types := [("L", {})]
    members := [(⟨11, 22⟩, function "byte*"), (⟨100, 111⟩, function type)] }

set_option maxRecDepth 4000 in
theorem read?_overloadSource :
    read? (overloadSource "byte *") = some (overloadManifest "byte *") := by
  unfold overloadManifest overloadSource
  simp only [String.toList_append]
  rw [toList_literal rfl, toList_literal rfl, toList_literal rfl, toList_literal rfl,
    toList_literal rfl]
  cbv

theorem validate_overloadManifest : (overloadManifest "byte *").validate = .ok () := by
  decide +kernel

theorem tellsApart_of_validate_blank :
    let m := overloadManifest "byte *"
    m.validate = .ok () ∧
      ∃ d x y a b, m.declarations = .ok d ∧ m.members[0]? = some x ∧ d.members[0]? = some a ∧
        m.members[1]? = some y ∧ d.members[1]? = some b ∧ m.TellsApart x.2 y.2 a b := by
  intro m
  obtain ⟨d, hd, htells⟩ := tellsApart_of_validate validate_overloadManifest
  have hmembers : m.declarations.toOption.map (fun d => decide (d.members.length = 2 ∧
      d.members[0]?.map (fun a => (a.container, a.name)) =
        d.members[1]?.map fun b => (b.container, b.name))) = some true := by
    decide +kernel
  rw [hd] at hmembers
  obtain ⟨hlength, hsame⟩ := of_decide_eq_true (Option.some.inj hmembers)
  obtain ⟨a, ha⟩ : ∃ a, d.members[0]? = some a := ⟨_, List.getElem?_eq_getElem (by omega)⟩
  obtain ⟨b, hb⟩ : ∃ b, d.members[1]? = some b := ⟨_, List.getElem?_eq_getElem (by omega)⟩
  rw [ha, hb] at hsame
  have hpair := Option.some.inj hsame
  exact ⟨validate_overloadManifest, d, _, _, a, b, hd, rfl, ha, rfl, hb, htells 0 1 _ _ a b (by decide) rfl ha rfl hb
    (congrArg Prod.fst hpair) (congrArg Prod.snd hpair)⟩

end Manifest

namespace Generator

/-- The unit of imports implements one signature twice. -/
def RepeatsSignature (g : Generator) : Prop :=
  ∃ a ∈ g.importsPass.tree.members, ∃ b ∈ g.importsPass.tree.members,
    a.target.id ≠ b.target.id ∧ a.target.container = b.target.container ∧
      a.target.name = b.target.name ∧ a.target.paramTypeNames = b.target.paramTypeNames ∧
      a.target.methodSignature = b.target.methodSignature

instance (g : Generator) : Decidable g.RepeatsSignature :=
  inferInstanceAs (Decidable (∃ a ∈ g.importsPass.tree.members,
    ∃ b ∈ g.importsPass.tree.members, a.target.id ≠ b.target.id ∧
      a.target.container = b.target.container ∧ a.target.name = b.target.name ∧
      a.target.paramTypeNames = b.target.paramTypeNames ∧
      a.target.methodSignature = b.target.methodSignature))

/-- A blank in front of a star makes another overload of the same method. -/
theorem exists_repeatsSignature :
    ∃ g, Generator.parse (Manifest.overloadSource "byte *") = .ok g ∧ g.RepeatsSignature := by
  obtain ⟨g, hparse, hsaid⟩ := exists_parse_of_read (fun g => decide g.RepeatsSignature)
    (Manifest.overloadSource "byte *") (Manifest.overloadManifest "byte *") true
    Manifest.read?_overloadSource Manifest.validate_overloadManifest (by decide +kernel)
  exact ⟨g, hparse, of_decide_eq_true hsaid⟩

end Generator
end NativeBindings
