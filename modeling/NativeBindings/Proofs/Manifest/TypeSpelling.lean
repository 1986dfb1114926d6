import NativeBindings.Manifest.TypeTable
import NativeBindings.Proofs.Text.Blank

/-!
# Spellings of types

The types that texts stand for, given by a grammar: white space may stand around every type, a
question mark may be repeated, a read-only span can be written in three ways, and a declared type
with or without a qualifier. Every text that can be resolved writes a type.

## Main definitions

- `WrittenType` — a type as it is written, with its name in generated code and its usual text
- `TypeScope.Writes` — a text writes a type

## Main statements

- `TypeScope.exists_writes_of_resolve?` — a text that stands for a type writes one with its name
-/

namespace NativeBindings

/-- A type as it is written. -/
inductive WrittenType where
  /-- A built-in type or a type parameter. -/
  | named (name : String)
  /-- A declared type. -/
  | declared (key : String)
  | nullable (t : WrittenType)
  | pointer (t : WrittenType)
  | span (element : WrittenType)
  deriving DecidableEq

namespace WrittenType

def isNullable : WrittenType → Bool
  | nullable _ => true
  | named _ | declared _ | pointer _ | span _ => false

/-- The nullable form of a type, which may be nullable already. -/
def asNullable (t : WrittenType) : WrittenType := if t.isNullable then t else nullable t

/-- The name in generated code. -/
def name : WrittenType → String
  | named name => name
  | declared key => "global::" ++ .ofList (nameOfKey key.toList)
  | nullable t => t.name ++ "?"
  | pointer t => t.name ++ "*"
  | span element => "global::System.ReadOnlySpan<" ++ (element.name ++ ">")

/-- The usual text, without qualifiers and white space. -/
def text : WrittenType → String
  | named name => name
  | declared key => key
  | nullable t => t.text ++ "?"
  | pointer t => t.text ++ "*"
  | span element => "ReadOnlySpan<" ++ (element.text ++ ">")

@[simp] theorem name_named (name : String) : (named name).name = name := rfl

@[simp] theorem name_declared (key : String) :
    (declared key).name = "global::" ++ .ofList (nameOfKey key.toList) := rfl

@[simp] theorem name_nullable (t : WrittenType) : (nullable t).name = t.name ++ "?" := rfl

@[simp] theorem name_pointer (t : WrittenType) : (pointer t).name = t.name ++ "*" := rfl

@[simp] theorem name_span (element : WrittenType) :
    (span element).name = "global::System.ReadOnlySpan<" ++ (element.name ++ ">") := rfl

/-- What a type that a text stands for has of the type that the text writes. -/
structure Describes (t : WrittenType) (use : TypeUse) : Prop where
  name : use.name = t.name
  nullable : use.nullable = t.isNullable

variable {t : WrittenType} {use : TypeUse}

theorem Describes.asNullable (h : t.Describes use) : t.asNullable.Describes use.asNullable := by
  unfold WrittenType.asNullable TypeUse.asNullable
  rw [h.nullable]
  split
  · exact h
  · exact ⟨congrArg (· ++ "?") h.name, rfl⟩

theorem Describes.pointer (h : t.Describes use) : (pointer t).Describes use.pointer :=
  ⟨congrArg (· ++ "*") h.name, rfl⟩

theorem Describes.span (h : t.Describes use) : (span t).Describes (TypeScope.spanOf use) :=
  ⟨(String.append_assoc ..).trans
    (congrArg ("global::System.ReadOnlySpan<" ++ · ++ ">") h.name), rfl⟩

end WrittenType

namespace TypeScope

open WrittenType

/-- The names of the built-in types. -/
def builtins : List String := ["void", "string", "char", "byte", "object"] ++ primitives

/-- The text writes a type. Built-in types come before type parameters, and those before declared
types. -/
inductive Writes (scope : TypeScope) : List Char → WrittenType → Prop where
  | builtin {name : String} (h : name ∈ builtins) : Writes scope name.toList (.named name)
  | typeParam {p : TypeParam} (h : p ∈ scope.typeParams) :
    Writes scope p.name.toList (.named p.name)
  | declared {key : String} (h : key ∈ scope.types.map (·.1)) (hbuiltin : key ∉ builtins)
    (hparam : key ∉ scope.typeParams.map (·.name)) : Writes scope key.toList (.declared key)
  | qualified {key : String} (h : key ∈ scope.types.map (·.1)) :
    Writes scope ("global::".toList ++ key.toList) (.declared key)
  | nullable {s : List Char} {t : WrittenType} (h : Writes scope s t) :
    Writes scope (s ++ ['?']) t.asNullable
  | pointer {s : List Char} {t : WrittenType} (h : Writes scope s t) :
    Writes scope (s ++ ['*']) t.pointer
  | span {start : String} {s : List Char} {t : WrittenType} (hstart : start ∈ spanStarts)
    (h : Writes scope s t) : Writes scope (start.toList ++ s ++ ['>']) t.span
  | blank {before s after : List Char} {t : WrittenType} (hbefore : IsBlank before)
    (hafter : IsBlank after) (h : Writes scope s t) : Writes scope (before ++ s ++ after) t

variable {scope : TypeScope} {text inner : List Char} {use : TypeUse}

/-! ## Names -/

theorem builtin?_eq_none {name : String} (h : name ∉ builtins) : builtin? name = none := by
  simp only [builtins, List.mem_append, List.mem_cons, List.not_mem_nil, or_false, not_or] at h
  obtain ⟨⟨hvoid, hstring, hchar, hbyte, hobject⟩, hprimitive⟩ := h
  unfold builtin?
  rw [if_neg hvoid, if_neg hstring, if_neg hchar, if_neg hbyte, if_neg hobject,
    if_neg (by rwa [List.contains_iff_mem])]

theorem exists_builtin? {name : String} (h : name ∈ builtins) :
    ∃ use, builtin? name = some use ∧ (WrittenType.named name).Describes use := by
  have hall : ∀ name ∈ builtins,
      (builtin? name).map (fun use => (use.name, use.nullable)) = some (name, false) := by
    decide +kernel
  obtain ⟨use, huse, heq⟩ := Option.map_eq_some_iff.1 (hall name h)
  exact ⟨use, huse, congrArg Prod.fst heq, congrArg Prod.snd heq⟩

theorem typeParam?_eq_none {name : String} (h : name ∉ scope.typeParams.map (·.name)) :
    scope.typeParam? name = none := by
  rw [typeParam?, Option.map_eq_none_iff, List.find?_eq_none]
  intro p hp heq
  exact h (List.mem_map.2 ⟨p, hp, beq_iff_eq.1 heq⟩)

theorem exists_typeParam? {name : String} (h : name ∈ scope.typeParams.map (·.name)) :
    ∃ use, scope.typeParam? name = some use ∧ (WrittenType.named name).Describes use := by
  obtain ⟨p, hp, rfl⟩ := List.mem_map.1 h
  have hfind : (scope.typeParams.find? (·.name == p.name)).isSome := by
    rw [List.find?_isSome]
    exact ⟨p, hp, beq_self_eq_true _⟩
  obtain ⟨q, hq⟩ := Option.isSome_iff_exists.1 hfind
  have hname : q.name = p.name := by simpa using List.find?_some hq
  exact ⟨_, congrArg (Option.map _) hq, hname, rfl⟩

theorem get?_isSome_iff {types : TypeTable} {key : String} :
    (types.get? key).isSome ↔ key ∈ types.map (·.1) := by
  rw [TypeTable.get?, Option.isSome_map, List.find?_isSome, List.mem_map]
  simp only [beq_iff_eq]

/-- The type of a declared key. -/
theorem exists_declared? (hkey : (scope.types.get? (.ofList (withoutQualifier text))).isSome) :
    ∃ use, scope.declared? text = some use ∧
      (WrittenType.declared (.ofList (withoutQualifier text))).Describes use := by
  obtain ⟨t, ht⟩ := Option.isSome_iff_exists.1 hkey
  unfold declared?
  generalize withoutQualifier text = key at ht ⊢
  have hkeyList : (String.ofList key).toList = key := String.toList_ofList
  have hname : (WrittenType.declared (.ofList key)).name = "global::" ++ .ofList (nameOfKey key) := by
    rw [WrittenType.name_declared, hkeyList]
  dsimp only
  rw [ht]
  exact ⟨_, rfl, hname.symm, rfl⟩

/-- What a text stands for that is none of the other forms. -/
def base? (scope : TypeScope) (text : List Char) : Option TypeUse :=
  ((builtin? (.ofList text)).or (scope.typeParam? (.ofList text))).or (scope.declared? text)

theorem exists_writes_of_base? (h : scope.base? text = some use) :
    ∃ t, scope.Writes text t ∧ t.Describes use := by
  unfold base? at h
  by_cases hbuiltin : String.ofList text ∈ builtins
  · obtain ⟨use', huse', hdescribes⟩ := exists_builtin? hbuiltin
    rw [huse', Option.some_or, Option.some_or, Option.some_inj] at h
    refine ⟨_, ?_, h ▸ hdescribes⟩
    simpa using Writes.builtin hbuiltin
  rw [builtin?_eq_none hbuiltin, Option.none_or] at h
  by_cases hparam : String.ofList text ∈ scope.typeParams.map (·.name)
  · obtain ⟨use', huse', hdescribes⟩ := exists_typeParam? hparam
    rw [huse', Option.some_or, Option.some_inj] at h
    refine ⟨_, ?_, h ▸ hdescribes⟩
    obtain ⟨p, hp, heq⟩ := List.mem_map.1 hparam
    have hwrites := Writes.typeParam hp
    rwa [heq, String.toList_ofList] at hwrites
  rw [typeParam?_eq_none hparam, Option.none_or] at h
  have hkey : (scope.types.get? (.ofList (withoutQualifier text))).isSome := by
    obtain ⟨t, ht, -⟩ := Option.map_eq_some_iff.1 h
    rw [ht]
    rfl
  obtain ⟨use', huse', hdescribes⟩ := exists_declared? hkey
  rw [huse', Option.some_inj] at h
  refine ⟨_, ?_, h ▸ hdescribes⟩
  rw [get?_isSome_iff] at hkey
  unfold withoutQualifier at hkey ⊢
  cases hdrop : dropStart? "global::".toList text with
  | none =>
    rw [hdrop, Option.getD_none] at hkey
    have hwrites := Writes.declared hkey hbuiltin hparam
    rwa [String.toList_ofList] at hwrites
  | some key =>
    rw [hdrop, Option.getD_some] at hkey
    have hwrites := Writes.qualified hkey
    have hlist : (String.ofList key).toList = key := String.toList_ofList
    rwa [hlist, ← append_of_dropStart? hdrop] at hwrites

/-- A text that stands for a type writes one. -/
theorem exists_writes_of_resolve? (h : scope.resolve? text = some use) :
    ∃ t, scope.Writes text t ∧ t.Describes use := by
  have htrim (text : List Char) {t : WrittenType} (hwrites : scope.Writes (trimBlank text) t) :
      scope.Writes text t := by
    obtain ⟨before, after, hbefore, hafter, heq⟩ := exists_append_trimBlank text
    rw [heq]
    exact .blank hbefore hafter hwrites
  fun_induction resolve? scope text generalizing use with
  | case1 => cases h
  | case2 text _ _ inner hmark _ ih =>
    obtain ⟨use, huse, rfl⟩ := Option.map_eq_some_iff.1 h
    obtain ⟨t, hwrites, hdescribes⟩ := ih huse
    refine ⟨_, htrim text ?_, hdescribes.asNullable⟩
    rw [append_of_dropEnd? hmark]
    exact .nullable hwrites
  | case3 text _ _ _ inner hmark _ ih =>
    obtain ⟨use, huse, rfl⟩ := Option.map_eq_some_iff.1 h
    obtain ⟨t, hwrites, hdescribes⟩ := ih huse
    refine ⟨_, htrim text ?_, hdescribes.pointer⟩
    rw [append_of_dropEnd? hmark]
    exact .pointer hwrites
  | case4 text _ _ _ _ inner hspan _ ih =>
    obtain ⟨use, huse, rfl⟩ := Option.map_eq_some_iff.1 h
    obtain ⟨t, hwrites, hdescribes⟩ := ih huse
    obtain ⟨body, hbody, hstart⟩ := Option.bind_eq_some_iff.1 hspan
    obtain ⟨start, hmem, hinner⟩ := List.exists_of_findSome?_eq_some hstart
    refine ⟨_, htrim text ?_, hdescribes.span⟩
    rw [append_of_dropEnd? hbody, append_of_dropStart? hinner]
    exact .span hmem hwrites
  | case5 text _ _ _ _ _ =>
    obtain ⟨t, hwrites, hdescribes⟩ := exists_writes_of_base? h
    exact ⟨t, htrim text hwrites, hdescribes⟩

end TypeScope
end NativeBindings
