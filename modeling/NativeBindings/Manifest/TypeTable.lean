import NativeBindings.Declaration.Member
import NativeBindings.Text.Blank

/-!
# Declared types

The types that a manifest declares, and what the texts mean that a manifest writes for types.

## Main definitions

- `DeclaredType` — a declared type
- `TypeTable` — the declared types by key, such as `Demo.Outer+Inner`
- `TypeScope.resolve?` — the type that a text stands for
-/

namespace NativeBindings

/-- A declared type. -/
structure DeclaredType where
  keyword : TypeKeyword := .classType
  isPartial : Bool := true
  access : Accessibility := .internalAccess
  /-- Declared to have a fixed layout, which counts for value types only. -/
  hasFixedLayout : Bool := false
  typeParams : List String := []
  deriving DecidableEq

/-- Values of the type have a fixed layout in memory; those of an enum always have one. -/
def DeclaredType.isUnmanaged (t : DeclaredType) : Bool :=
  match t.keyword with
  | .enumType => true
  | .structType | .recordStruct => t.hasFixedLayout
  | .classType | .recordType | .interfaceType | .delegateType => false

/-- The declared types by key. A key joins the name of a nested type to that of the type around it
with a plus sign. -/
abbrev TypeTable := List (String × DeclaredType)

namespace TypeTable

def get? (ts : TypeTable) (key : String) : Option DeclaredType :=
  (ts.find? (·.1 == key)).map (·.2)

end TypeTable

/-- `s` without a `global::` in front. -/
def withoutQualifier (s : List Char) : List Char := (dropStart? "global::".toList s).getD s

/-- The dotted name of a key. -/
def nameOfKey (key : List Char) : List Char := key.map fun c => if c = '+' then '.' else c

/-- One of the constraints is `unmanaged`. -/
def TypeParam.isUnmanaged (p : TypeParam) : Bool :=
  p.constraint.any fun c =>
    (segments ',' c.toList).any fun part => trimBlank part == "unmanaged".toList

/-- What the names in a type can stand for. -/
structure TypeScope where
  types : TypeTable
  typeParams : List TypeParam

namespace TypeScope

/-- The built-in value types besides `char` and `byte`. -/
def primitives : List String :=
  ["bool", "sbyte", "short", "ushort", "int", "uint", "long", "ulong", "nint", "nuint", "float",
   "double", "decimal"]

/-- The spellings of the start of a read-only span. -/
def spanStarts : List String :=
  ["ReadOnlySpan<", "System.ReadOnlySpan<", "global::System.ReadOnlySpan<"]

/-- The built-in type of a name. -/
def builtin? (name : String) : Option TypeUse :=
  if name = "void" then some .void
  else if name = "string" then some ⟨name, .string, false⟩
  else if name = "char" then some ⟨name, .char, false⟩
  else if name = "byte" then some ⟨name, .byte, false⟩
  else if name = "object" then some ⟨name, .managed, false⟩
  else if primitives.contains name then some ⟨name, .primitive, false⟩
  else none

/-- The type parameter of a name. -/
def typeParam? (scope : TypeScope) (name : String) : Option TypeUse :=
  (scope.typeParams.find? (·.name == name)).map fun p =>
    ⟨p.name, .typeParameter p.isUnmanaged, false⟩

/-- The declared type of a key, which can be qualified. -/
def declared? (scope : TypeScope) (text : List Char) : Option TypeUse :=
  let key := withoutQualifier text
  (scope.types.get? (.ofList key)).map fun t =>
    ⟨"global::" ++ .ofList (nameOfKey key), if t.isUnmanaged then .unmanaged else .managed, false⟩

/-- The text of the elements of a read-only span. -/
def spanElement? (text : List Char) : Option (List Char) := do
  let body ← dropEnd? ['>'] text
  spanStarts.findSome? fun start => dropStart? start.toList body

/-- The read-only span of elements of a type. -/
def spanOf (element : TypeUse) : TypeUse :=
  ⟨"global::System.ReadOnlySpan<" ++ element.name ++ ">", .spanOf element, false⟩

theorem length_dropStart? {p s rest : List Char} (h : dropStart? p s = some rest) :
    rest.length ≤ s.length := by
  rw [append_of_dropStart? h, List.length_append]
  omega

theorem length_dropEnd? {c : Char} {s rest : List Char} (h : dropEnd? [c] s = some rest) :
    rest.length < s.length := by
  rw [append_of_dropEnd? h, List.length_append]
  simp

theorem length_spanElement? {s rest : List Char} (h : spanElement? s = some rest) :
    rest.length < s.length := by
  obtain ⟨body, hb, h⟩ := Option.bind_eq_some_iff.1 h
  obtain ⟨_, _, hs⟩ := List.exists_of_findSome?_eq_some h
  exact Nat.lt_of_le_of_lt (length_dropStart? hs) (length_dropEnd? hb)

/-- The type that a text stands for: a type with `?` or `*` behind it, a read-only span, a built-in
type, a type parameter or a declared type. -/
def resolve? (scope : TypeScope) (text : List Char) : Option TypeUse :=
  have := length_trimBlank text
  if (trimBlank text).isEmpty then none
  else
    match hn : dropEnd? ['?'] (trimBlank text) with
    | some inner =>
      have := length_dropEnd? hn
      (resolve? scope inner).map (·.asNullable)
    | none =>
      match hp : dropEnd? ['*'] (trimBlank text) with
      | some inner =>
        have := length_dropEnd? hp
        (resolve? scope inner).map (·.pointer)
      | none =>
        match hs : spanElement? (trimBlank text) with
        | some inner =>
          have := length_spanElement? hs
          (resolve? scope inner).map spanOf
        | none =>
          ((builtin? (.ofList (trimBlank text))).or
            (scope.typeParam? (.ofList (trimBlank text)))).or (scope.declared? (trimBlank text))
termination_by text.length
decreasing_by all_goals omega

end TypeScope
end NativeBindings
