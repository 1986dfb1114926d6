import NativeBindings.Proofs.Manifest.TypeResolution

/-!
# Canonical names of types

Where no declared type is nested, the name of a resolved type is a text for this type: resolution
adds the qualifiers that it would look through, and drops the white space and the question marks
that it would not see. Texts that resolve to types of one name therefore resolve to one type.

## Main definitions

- `TypeScope.IsFlat` — a scope in which all names are names of the language and no type is nested

## Main statements

- `TypeScope.resolve?_congr` — white space around a text does not matter
- `TypeScope.IsFlat.resolve?_name` — names resolve to their types
-/

namespace NativeBindings
namespace TypeScope

variable {scope : TypeScope} {text text' : List Char} {use use' : TypeUse}

/-- The names in the scope are names of the language, and no declared type is nested. -/
structure IsFlat (scope : TypeScope) : Prop where
  typeParams : ∀ p ∈ scope.typeParams, Identifier.isValid p.name.toList = true
  keys : ∀ entry ∈ scope.types,
    ∀ part ∈ segments '.' entry.1.toList, Identifier.isValid part = true

namespace IsFlat

theorem isValid (hscope : scope.IsFlat) : scope.IsValid where
  typeParams := hscope.typeParams
  keys := by
    intro entry hentry part hpart
    obtain ⟨dotted, hdotted, hpart⟩ := List.mem_flatMap.1 hpart
    have hvalid := hscope.keys entry hentry dotted hdotted
    rw [segments_of_notMem (Identifier.plus_notMem hvalid), List.mem_singleton] at hpart
    rwa [hpart]

/-- Keys of types that are not nested are dotted names. -/
theorem nameOfKey_eq_self (hscope : scope.IsFlat) {key : String}
    (hkey : key ∈ scope.types.map (·.1)) : nameOfKey key.toList = key.toList := by
  obtain ⟨entry, hentry, rfl⟩ := List.mem_map.1 hkey
  refine nameOfKey_of_notMem fun hmem => ?_
  rcases eq_or_mem_of_mem_segments '.' hmem with heq | ⟨part, hpart, hmem⟩
  · cases heq
  · exact Identifier.plus_notMem (hscope.keys entry hentry part hpart) hmem

end IsFlat

/-! ## White space -/

theorem resolve?_of_trimBlank_eq_nil (h : trimBlank text = []) : scope.resolve? text = none := by
  rw [TypeScope.resolve?, if_pos (List.isEmpty_iff.2 h)]

theorem resolve?_congr (h : trimBlank text = trimBlank text') :
    scope.resolve? text = scope.resolve? text' := by
  by_cases hnil : trimBlank text = []
  · rw [resolve?_of_trimBlank_eq_nil hnil, resolve?_of_trimBlank_eq_nil (h ▸ hnil)]
  · rw [resolve?_eq hnil, resolve?_eq (h ▸ hnil), h]

/-- A mark stands behind what resolves to a type, whatever white space is in front of it. -/
theorem resolve?_concat_nullable (s : List Char) :
    scope.resolve? (s ++ ['?']) = (scope.resolve? s).map (·.asNullable) := by
  rw [resolve?_of_nullable (trimBlank_concat (by decide) s), resolve?_congr (trimBlank_dropWhile s)]

theorem resolve?_concat_pointer (s : List Char) :
    scope.resolve? (s ++ ['*']) = (scope.resolve? s).map (·.pointer) := by
  rw [resolve?_of_pointer (trimBlank_concat (by decide) s), resolve?_congr (trimBlank_dropWhile s)]

theorem resolve?_spanStart {start : String} (hstart : start ∈ spanStarts) (s : List Char) :
    scope.resolve? (start.toList ++ s ++ ['>']) = (scope.resolve? s).map spanOf :=
  resolve?_of_span hstart (trimBlank_span hstart s)

/-! ## Names of types -/

theorem resolve?_name_asNullable (h : scope.resolve? use.name.toList = some use) :
    scope.resolve? use.asNullable.name.toList = some use.asNullable := by
  by_cases hnullable : use.nullable = true
  · rwa [TypeUse.asNullable, if_pos hnullable]
  · have hname : use.asNullable.name.toList = use.name.toList ++ ['?'] := by
      rw [TypeUse.asNullable, if_neg hnullable, String.toList_append]
      rfl
    rw [hname, resolve?_concat_nullable, h, Option.map_some]

theorem resolve?_name_pointer (h : scope.resolve? use.name.toList = some use) :
    scope.resolve? use.pointer.name.toList = some use.pointer := by
  have hname : use.pointer.name.toList = use.name.toList ++ ['*'] := String.toList_append
  rw [hname, resolve?_concat_pointer, h, Option.map_some]

theorem resolve?_name_spanOf (h : scope.resolve? use.name.toList = some use) :
    scope.resolve? (spanOf use).name.toList = some (spanOf use) := by
  have hname : (spanOf use).name.toList =
      "global::System.ReadOnlySpan<".toList ++ use.name.toList ++ ['>'] :=
    String.toList_append.trans (congrArg (· ++ ['>']) String.toList_append)
  have hstart : "global::System.ReadOnlySpan<" ∈ spanStarts := by decide
  rw [hname, resolve?_spanStart hstart, h, Option.map_some]

/-- Declared types are looked up without the qualifier. -/
theorem declared?_congr (h : withoutQualifier text = withoutQualifier text') :
    scope.declared? text = scope.declared? text' := by
  rw [declared?, declared?, h]

namespace IsFlat

theorem base?_name_of_builtin (hname : String.ofList text ∈ builtins)
    (h : scope.base? text = some use) :
    IsUnmarked use.name.toList ∧ scope.base? use.name.toList = some use := by
  obtain ⟨hne, hcharacters⟩ := isKeyCharacter_of_mem_builtins hname
  obtain ⟨use', huse', huse, -⟩ : ∃ use', scope.base? (String.ofList text).toList = some use' ∧
      (WrittenType.named (.ofList text)).Describes use' := exists_base?_of_builtin hname
  have htext : (String.ofList text).toList = text := String.toList_ofList
  rw [htext, h, Option.some_inj] at huse'
  rw [← huse', WrittenType.name_named] at huse
  rw [huse, htext]
  exact ⟨isUnmarked_of_isKeyCharacter (htext ▸ hne) (htext ▸ hcharacters), h⟩

theorem base?_name_of_typeParam (hscope : scope.IsFlat)
    (hname : String.ofList text ∈ scope.typeParams.map (·.name))
    (h : scope.base? text = some use) :
    IsUnmarked use.name.toList ∧ scope.base? use.name.toList = some use := by
  obtain ⟨p, hp, hpname⟩ := List.mem_map.1 hname
  have hvalid := hscope.typeParams p hp
  obtain ⟨use', huse', huse, -⟩ := exists_base?_of_typeParam hp
  have htext : p.name.toList = text := by rw [hpname, String.toList_ofList]
  rw [htext, h, Option.some_inj] at huse'
  rw [← huse', WrittenType.name_named] at huse
  rw [huse, htext, ← htext]
  exact ⟨isUnmarked_of_isKeyCharacter (ne_nil_of_isValid hvalid) (isKeyCharacter_of_isValid hvalid),
    htext ▸ h⟩

/-- The name of a declared type is its key with a qualifier, so it names nothing else. -/
theorem base?_name_of_declared (hscope : scope.IsFlat) (h : scope.declared? text = some use) :
    IsUnmarked use.name.toList ∧ scope.base? use.name.toList = some use := by
  obtain ⟨t, ht, huse⟩ := Option.map_eq_some_iff.1 h
  have hkey : String.ofList (withoutQualifier text) ∈ scope.types.map (·.1) :=
    get?_isSome_iff.1 (Option.isSome_of_eq_some ht)
  obtain ⟨hne, hcharacters⟩ := hscope.isValid.isKeyCharacter hkey
  have hflat := hscope.nameOfKey_eq_self hkey
  have hlist : (String.ofList (withoutQualifier text)).toList = withoutQualifier text :=
    String.toList_ofList
  rw [hlist] at hne hcharacters hflat
  have hname : use.name.toList = "global::".toList ++ withoutQualifier text := by
    rw [← huse, String.toList_append, hflat, hlist]
  have hqualifier : withoutQualifier ("global::".toList ++ withoutQualifier text) =
      withoutQualifier text := by
    rw [withoutQualifier, dropStart?_append]
    rfl
  rw [hname]
  refine ⟨(isUnmarked_of_isKeyCharacter hne hcharacters).qualified, ?_⟩
  have hbuiltin := ofList_qualified_notMem (fun _ hmem => (isKeyCharacter_of_mem_builtins hmem).2)
    (withoutQualifier text)
  have hparam : String.ofList ("global::".toList ++ withoutQualifier text) ∉
      scope.typeParams.map (·.name) := by
    refine ofList_qualified_notMem (fun name hmem => ?_) _
    obtain ⟨p, hp, rfl⟩ := List.mem_map.1 hmem
    exact isKeyCharacter_of_isValid (hscope.typeParams p hp)
  rw [base?, builtin?_eq_none hbuiltin, typeParam?_eq_none hparam, Option.none_or, Option.none_or,
    declared?_congr hqualifier, h]

/-- The name of what is written in no other form is read in no other form. -/
theorem base?_name (hscope : scope.IsFlat) (h : scope.base? text = some use) :
    IsUnmarked use.name.toList ∧ scope.base? use.name.toList = some use := by
  by_cases hbuiltin : String.ofList text ∈ builtins
  · exact base?_name_of_builtin hbuiltin h
  by_cases hparam : String.ofList text ∈ scope.typeParams.map (·.name)
  · exact hscope.base?_name_of_typeParam hparam h
  rw [base?, builtin?_eq_none hbuiltin, typeParam?_eq_none hparam, Option.none_or,
    Option.none_or] at h
  exact hscope.base?_name_of_declared h

theorem resolve?_name_of_resolve? (hscope : scope.IsFlat) (h : scope.resolve? text = some use) :
    scope.resolve? use.name.toList = some use := by
  fun_induction resolve? scope text generalizing use with
  | case1 => cases h
  | case2 _ _ _ inner _ _ ih =>
    obtain ⟨element, helement, rfl⟩ := Option.map_eq_some_iff.1 h
    exact resolve?_name_asNullable (ih helement)
  | case3 _ _ _ _ inner _ _ ih =>
    obtain ⟨element, helement, rfl⟩ := Option.map_eq_some_iff.1 h
    exact resolve?_name_pointer (ih helement)
  | case4 _ _ _ _ _ inner _ _ ih =>
    obtain ⟨element, helement, rfl⟩ := Option.map_eq_some_iff.1 h
    exact resolve?_name_spanOf (ih helement)
  | case5 =>
    obtain ⟨hunmarked, hbase⟩ := hscope.base?_name h
    rwa [resolve?_of_isUnmarked hunmarked hunmarked.trimBlank_eq]

/-- Names are texts for their types, and types of one name are one type. -/
theorem resolve?_name (hscope : scope.IsFlat) :
    (∀ text use, scope.resolve? text = some use →
      scope.resolve? use.name.toList = some use) ∧
    ∀ text text' use use', scope.resolve? text = some use → scope.resolve? text' = some use' →
      use.name = use'.name → use = use' := by
  refine ⟨fun text use => hscope.resolve?_name_of_resolve?, ?_⟩
  intro text text' use use' h h' hname
  have hresolve := hscope.resolve?_name_of_resolve? h
  rw [hname, hscope.resolve?_name_of_resolve? h', Option.some_inj] at hresolve
  exact hresolve.symm

end IsFlat

/-- A structure and a type parameter. -/
def pointScope : TypeScope where
  types := [("Demo.Point", { keyword := .structType, hasFixedLayout := true })]
  typeParams := [⟨"T", some "unmanaged"⟩]

/-- Two spellings of a span of structures that may be missing. -/
theorem resolve?_name_point :
    pointScope.IsFlat ∧
      ∃ use use',
        pointScope.resolve? ("ReadOnlySpan<".toList ++ " Demo.Point ? ?".toList ++ ['>']) =
          some use ∧
        pointScope.resolve? ("System.ReadOnlySpan<".toList ++ "Demo.Point?".toList ++ ['>']) =
          some use' ∧
        use.name = "global::System.ReadOnlySpan<global::Demo.Point?>" ∧
        pointScope.resolve? use.name.toList = some use ∧ use = use' := by
  have hscope : pointScope.IsFlat := ⟨by decide +kernel, by decide +kernel⟩
  have hblank : pointScope.resolve? " Demo.Point ? ?".toList =
      some ⟨"global::Demo.Point?", .unmanaged, true⟩ := by decide +kernel
  have hplain : pointScope.resolve? "Demo.Point?".toList =
      some ⟨"global::Demo.Point?", .unmanaged, true⟩ := by decide +kernel
  have hspan : pointScope.resolve? ("ReadOnlySpan<".toList ++ " Demo.Point ? ?".toList ++ ['>']) =
      some (spanOf ⟨"global::Demo.Point?", .unmanaged, true⟩) := by
    rw [resolve?_spanStart (by decide), hblank, Option.map_some]
  have hspan' :
      pointScope.resolve? ("System.ReadOnlySpan<".toList ++ "Demo.Point?".toList ++ ['>']) =
        some (spanOf ⟨"global::Demo.Point?", .unmanaged, true⟩) := by
    rw [resolve?_spanStart (by decide), hplain, Option.map_some]
  obtain ⟨hcanonical, hunique⟩ := hscope.resolve?_name
  exact ⟨hscope, _, _, hspan, hspan', by decide +kernel, hcanonical _ _ hspan,
    hunique _ _ _ _ hspan hspan' rfl⟩

end TypeScope
end NativeBindings
