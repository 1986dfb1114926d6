import NativeBindings.Proofs.Manifest.TypeResolution

/-!
# Names of written types

Two types have the same name in generated code exactly if they are the same, but for declared types
whose keys have the same dotted name: a nested type is named like a type of a namespace.

## Main definitions

- `WrittenType.dotted` — a type with dotted names in place of keys
- `WrittenType.IsKnown` — a type that can be written where some types are declared

## Main statements

- `WrittenType.dotted_eq_of_name_eq` — a type is known by its name, but for keys
-/

namespace NativeBindings

/-- No two declared types have the same dotted name. -/
def TypeTable.HasDistinctNames (types : TypeTable) : Prop :=
  ∀ key ∈ types.map (·.1), ∀ key' ∈ types.map (·.1),
    nameOfKey key.toList = nameOfKey key'.toList → key = key'

theorem nameOfKey_nameOfKey (key : List Char) : nameOfKey (nameOfKey key) = nameOfKey key := by
  unfold nameOfKey
  rw [List.map_map]
  refine List.map_congr_left fun c _ => ?_
  rw [Function.comp_apply]
  split
  · rfl
  next => rfl

namespace WrittenType

open TypeScope (IsKeyCharacter)

/-- The type with dotted names in place of keys. -/
def dotted : WrittenType → WrittenType
  | named name => named name
  | declared key => declared (.ofList (nameOfKey key.toList))
  | nullable t => nullable t.dotted
  | pointer t => pointer t.dotted
  | span element => span element.dotted

/-- Names are made of the characters of names, and keys are declared. -/
def IsKnown (types : TypeTable) : WrittenType → Prop
  | named name => ∀ c ∈ name.toList, IsKeyCharacter c
  | declared key => key ∈ types.map (·.1)
  | nullable t | pointer t | span t => t.IsKnown types

/-- The character that ends the names of types of one form. -/
def mark? : WrittenType → Option Char
  | named _ | declared _ => none
  | nullable _ => some '?'
  | pointer _ => some '*'
  | span _ => some '>'

variable {types : TypeTable} {t u : WrittenType}

@[simp] theorem name_dotted (t : WrittenType) : t.dotted.name = t.name := by
  induction t with
  | named name => rfl
  | declared key => simp only [dotted, name_declared, String.toList_ofList, nameOfKey_nameOfKey]
  | nullable t ih => simp only [dotted, name_nullable, ih]
  | pointer t ih => simp only [dotted, name_pointer, ih]
  | span element ih => simp only [dotted, name_span, ih]

theorem isKeyCharacter_of_mem_nameOfKey {key : List Char} (h : ∀ c ∈ key, IsKeyCharacter c) :
    ∀ c ∈ nameOfKey key, IsKeyCharacter c := by
  intro c hc
  obtain ⟨d, hd, rfl⟩ := List.mem_map.1 hc
  split
  · exact .inl (by decide)
  · exact h d hd

/-- The form of a type is told by the last character of its name. -/
theorem mark?_eq (hkeys : ∀ key ∈ types.map (·.1), ∀ c ∈ key.toList, IsKeyCharacter c)
    (h : t.IsKnown types) : t.mark? = t.name.toList.getLast?.filter (· ∈ ['?', '*', '>']) := by
  cases t with
  | named name =>
    symm
    rw [name_named, mark?, Option.filter_eq_none_iff]
    intro c hc
    have hkey := h c (List.mem_of_mem_getLast? hc)
    simpa using fun hmark => TypeScope.not_isKeyCharacter_of_mark hmark hkey
  | declared key =>
    symm
    rw [name_declared, mark?, Option.filter_eq_none_iff]
    intro c hc
    have hmem := List.mem_of_mem_getLast? hc
    have hlist : (String.ofList (nameOfKey key.toList)).toList = nameOfKey key.toList :=
      String.toList_ofList
    rw [String.toList_append, hlist, List.mem_append] at hmem
    rcases hmem with hmem | hmem
    · simpa using (TypeScope.of_mem_qualifier hmem).2
    · have hkey := isKeyCharacter_of_mem_nameOfKey (hkeys key h) c hmem
      simpa using fun hmark => TypeScope.not_isKeyCharacter_of_mark hmark hkey
  | nullable t =>
    rw [name_nullable, String.toList_append]
    show some '?' = ((t.name.toList ++ ['?']).getLast?).filter _
    rw [List.getLast?_concat]
    rfl
  | pointer t =>
    rw [name_pointer, String.toList_append]
    show some '*' = ((t.name.toList ++ ['*']).getLast?).filter _
    rw [List.getLast?_concat]
    rfl
  | span element =>
    rw [name_span, String.toList_append, String.toList_append, ← List.append_assoc]
    show some '>' = ((_ ++ ['>']).getLast?).filter _
    rw [List.getLast?_concat]
    rfl

theorem mark?_eq_of_name_eq
    (hkeys : ∀ key ∈ types.map (·.1), ∀ c ∈ key.toList, IsKeyCharacter c)
    (ht : t.IsKnown types) (hu : u.IsKnown types) (h : t.name = u.name) : t.mark? = u.mark? := by
  rw [mark?_eq hkeys ht, mark?_eq hkeys hu, h]

/-- Names are not qualified, and names of declared types are. -/
theorem name_named_ne_name_declared {name key : String}
    (h : ∀ c ∈ name.toList, IsKeyCharacter c) : (named name).name ≠ (declared key).name := by
  rw [name_named, name_declared]
  rintro rfl
  refine TypeScope.notMem_of_isKeyCharacter h (c := ':') (by decide) (by decide +kernel) ?_
  rw [String.toList_append]
  exact List.mem_append_left _ (by decide)

theorem dotted_eq_of_name_eq
    (hkeys : ∀ key ∈ types.map (·.1), ∀ c ∈ key.toList, IsKeyCharacter c)
    (ht : t.IsKnown types) (hu : u.IsKnown types) (h : t.name = u.name) : t.dotted = u.dotted := by
  induction t generalizing u with
  | named name =>
    have hmark := mark?_eq_of_name_eq hkeys ht hu h
    cases u with
    | named => exact congrArg named h
    | declared key => exact absurd h (name_named_ne_name_declared ht)
    | nullable | pointer | span => cases hmark
  | declared key =>
    have hmark := mark?_eq_of_name_eq hkeys ht hu h
    cases u with
    | named name => exact absurd h.symm (name_named_ne_name_declared hu)
    | declared key' =>
      rw [name_declared, name_declared, String.append_right_inj] at h
      exact congrArg declared h
    | nullable | pointer | span => cases hmark
  | nullable t ih =>
    have hmark := mark?_eq_of_name_eq hkeys ht hu h
    cases u with
    | nullable u => exact congrArg nullable (ih ht hu ((String.append_left_inj _).1 h))
    | named | declared | pointer | span => cases hmark
  | pointer t ih =>
    have hmark := mark?_eq_of_name_eq hkeys ht hu h
    cases u with
    | pointer u => exact congrArg pointer (ih ht hu ((String.append_left_inj _).1 h))
    | named | declared | nullable | span => cases hmark
  | span element ih =>
    have hmark := mark?_eq_of_name_eq hkeys ht hu h
    cases u with
    | span element' =>
      rw [name_span, name_span, String.append_right_inj, String.append_left_inj] at h
      exact congrArg span (ih ht hu h)
    | named | declared | nullable | pointer => cases hmark

/-- Where dotted names tell keys apart, they tell types apart. -/
theorem eq_of_dotted_eq (hdistinct : types.HasDistinctNames) (ht : t.IsKnown types)
    (hu : u.IsKnown types) (h : t.dotted = u.dotted) : t = u := by
  induction t generalizing u with
  | named name =>
    cases u with
    | named => exact h
    | declared | nullable | pointer | span => cases h
  | declared key =>
    cases u with
    | declared key' =>
      have hnames := String.ofList_inj.1 (declared.inj h)
      exact congrArg declared (hdistinct key ht key' hu hnames)
    | named | nullable | pointer | span => cases h
  | nullable t ih =>
    cases u with
    | nullable u => exact congrArg nullable (ih ht hu (nullable.inj h))
    | named | declared | pointer | span => cases h
  | pointer t ih =>
    cases u with
    | pointer u => exact congrArg pointer (ih ht hu (pointer.inj h))
    | named | declared | nullable | span => cases h
  | span element ih =>
    cases u with
    | span element' => exact congrArg span (ih ht hu (span.inj h))
    | named | declared | nullable | pointer => cases h

end WrittenType

/-- The types that texts write are known where their scope is. -/
theorem TypeScope.Writes.isKnown {scope : TypeScope} (hscope : scope.IsValid) {s : List Char}
    {t : WrittenType} (h : scope.Writes s t) : t.IsKnown scope.types := by
  induction h with
  | builtin hname => exact (isKeyCharacter_of_mem_builtins hname).2
  | typeParam hp => exact isKeyCharacter_of_isValid (hscope.typeParams _ hp)
  | declared hkey => exact hkey
  | qualified hkey => exact hkey
  | nullable _ ih =>
    unfold WrittenType.asNullable
    split
    · exact ih
    · exact ih
  | pointer _ ih => exact ih
  | span _ _ ih => exact ih
  | blank _ _ _ ih => exact ih

end NativeBindings
