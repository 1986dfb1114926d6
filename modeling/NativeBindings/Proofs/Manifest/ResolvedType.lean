import NativeBindings.Manifest.TypeTable

/-!
# Names of resolved types

However a type is written in a manifest, its name in generated code is put together from its shape
and a question mark: strings, characters, bytes and read-only spans each have one name.

## Main statements

- `TypeScope.isNamed_of_resolve?` — the names of such types
-/

namespace NativeBindings

/-- The mark behind the name of a nullable type. -/
def nullableMark (nullable : Bool) : String := if nullable then "?" else ""

/-- The name of a string, a character, a byte or a read-only span goes by its shape. -/
def TypeShape.IsNamed : TypeShape → Bool → String → Prop
  | .string, nullable, name => name = "string" ++ nullableMark nullable
  | .char, nullable, name => name = "char" ++ nullableMark nullable
  | .byte, nullable, name => name = "byte" ++ nullableMark nullable
  | .span element shape marked, nullable, name =>
    name = "global::System.ReadOnlySpan<" ++ element ++ ">" ++ nullableMark nullable ∧
      shape.IsNamed marked element
  | .void, _, _ | .primitive, _, _ | .pointer, _, _ | .unmanaged, _, _ | .typeParameter _, _, _
  | .managed, _, _ => True

namespace TypeUse

/-- The name goes by the shape. -/
def IsNamed (t : TypeUse) : Prop := t.shape.IsNamed t.nullable t.name

theorem IsNamed.asNullable {t : TypeUse} (h : t.IsNamed) : t.asNullable.IsNamed := by
  obtain ⟨name, shape, nullable⟩ := t
  cases nullable with
  | true => exact h
  | false =>
    unfold IsNamed at h ⊢
    cases shape <;> simp_all [TypeShape.IsNamed, TypeUse.asNullable, nullableMark]

end TypeUse

namespace TypeScope

variable {scope : TypeScope} {use : TypeUse}

theorem isNamed_of_builtin? {name : String} (h : builtin? name = some use) : use.IsNamed := by
  unfold builtin? at h
  split at h
  · cases h
    trivial
  split at h
  next hname =>
    cases h
    exact hname
  split at h
  next hname =>
    cases h
    exact hname
  split at h
  next hname =>
    cases h
    exact hname
  split at h
  · cases h
    trivial
  split at h
  · cases h
    trivial
  · cases h

theorem isNamed_of_typeParam? {name : String} (h : scope.typeParam? name = some use) :
    use.IsNamed := by
  obtain ⟨p, -, rfl⟩ := Option.map_eq_some_iff.1 h
  trivial

theorem isNamed_of_declared? {text : List Char} (h : scope.declared? text = some use) :
    use.IsNamed := by
  obtain ⟨t, -, rfl⟩ := Option.map_eq_some_iff.1 h
  unfold TypeUse.IsNamed
  dsimp only
  split <;> trivial

theorem isNamed_of_resolve? {text : List Char} (h : scope.resolve? text = some use) :
    use.IsNamed := by
  fun_induction resolve? scope text generalizing use with
  | case1 => cases h
  | case2 text _ _ inner _ _ ih =>
    obtain ⟨t, ht, rfl⟩ := Option.map_eq_some_iff.1 h
    exact (ih ht).asNullable
  | case3 =>
    obtain ⟨t, ht, rfl⟩ := Option.map_eq_some_iff.1 h
    trivial
  | case4 text _ _ _ _ inner _ _ ih =>
    obtain ⟨t, ht, rfl⟩ := Option.map_eq_some_iff.1 h
    exact ⟨String.append_empty.symm, ih ht⟩
  | case5 =>
    rw [Option.or_eq_some_iff, Option.or_eq_some_iff] at h
    rcases h with (h | ⟨-, h⟩) | ⟨-, h⟩
    · exact isNamed_of_builtin? h
    · exact isNamed_of_typeParam? h
    · exact isNamed_of_declared? h

end TypeScope
end NativeBindings
