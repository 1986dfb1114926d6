import NativeBindings.Proofs.Symbol.Interning
import NativeBindings.Proofs.Text.Joined

/-!
# Keys of containers

A container is known by a key in which points stand between namespaces and plus signs in front of
nested types. Its namespaces and types are the parts of the key, and each of them has the symbol of
the key up to there.

## Main definitions

- `Container.key` — the key of a container
- `Container.Spells` — names and symbols of a container come from a key

## Main statements

- `ContainerNames.key_ofKey` — the names in a key make up the key
- `ContainerNames.spells` — a container with the names and symbols of a key spells the key
- `interns_containerOf` — the container of a key has the names and symbols of the key
-/

namespace NativeBindings

/-! ## Names in a key -/

theorem getElem?_beginnings {α : Type} (as : List α) (i : Nat) :
    (beginnings as)[i]? = as[i]?.map fun _ => as.take (i + 1) := by
  induction as generalizing i with
  | nil => rfl
  | cons a as ih =>
    cases i with
    | zero => rfl
    | succ i =>
      rw [beginnings, List.getElem?_cons_succ, List.getElem?_map, ih, List.getElem?_cons_succ,
        Option.map_map]
      rfl

namespace ContainerNames

/-- All types, the outermost first. -/
def types (c : ContainerNames) : List String := c.outermost :: c.nested

theorem nested_ofKey (key : List Char) :
    (ofKey key).nested = (cut? '+' key).elim [] fun parts => (segments '+' parts.2).map .ofList := by
  unfold ofKey
  cases cut? '+' key <;> rfl

/-- The namespaces and the outermost type stand in front of the first plus sign. -/
theorem front_ofKey (key : List Char) :
    qualifier (ofKey key).namespaces ++ (ofKey key).outermost =
      .ofList ((cut? '+' key).elim key (·.1)) := by
  have houter (outer : List Char) {front : List Char × List Char}
      (h : cutLast? '.' outer = some front) :
      qualifier ((segments '.' front.1).map .ofList) ++ .ofList front.2 = .ofList outer := by
    rw [qualifier_segments, append_of_cutLast? h, String.append_assoc, ← String.toList_inj]
    simp
  unfold ofKey
  -- points behind the first plus sign belong to names, so the last point is looked for before it
  cases cut? '+' key with
  | none =>
    cases hdot : cutLast? '.' key with
    | none => simp [hdot, qualifier]
    | some front => simpa [hdot] using houter key hdot
  | some parts =>
    cases hdot : cutLast? '.' parts.1 with
    | none => simp [hdot, qualifier]
    | some front => simpa [hdot] using houter parts.1 hdot

/-- The names in a key, put together again, are the key. -/
theorem key_ofKey (key : List Char) :
    qualifier (ofKey key).namespaces ++ joined "+" (ofKey key).types = .ofList key := by
  rw [types, ← joined_cons_append, front_ofKey, nested_ofKey]
  cases hcut : cut? '+' key with
  | none => rfl
  | some parts =>
    have hne : (segments '+' parts.2).map String.ofList ≠ [] := by
      simpa using segments_ne_nil '+' parts.2
    simp only [Option.elim_some]
    rw [joined_cons_of_ne_nil "+" _ hne, joined_segments (c := '+') rfl, append_of_cut? hcut,
      String.append_assoc, ← String.toList_inj]
    simp

theorem getElem?_namespaceKeys (c : ContainerNames) (i : Nat) :
    c.namespaceKeys[i]? =
      c.namespaces[i]?.map fun name => (joined "." (c.namespaces.take (i + 1)), name) := by
  rw [namespaceKeys, List.zip, List.getElem?_zipWith, List.getElem?_map, getElem?_beginnings]
  cases c.namespaces[i]? <;> rfl

theorem getElem?_typeKeys (c : ContainerNames) (i : Nat) :
    c.typeKeys[i]? = c.types[i]?.map fun name =>
      (qualifier c.namespaces ++ joined "+" (c.types.take (i + 1)), name) := by
  rw [typeKeys, joined_concat_eq, List.zip, List.getElem?_zipWith, List.getElem?_map,
    getElem?_beginnings, types]
  cases i with
  | zero => rfl
  | succ i =>
    rw [List.getElem?_cons_succ, List.getElem?_cons_succ, List.take_succ_cons, List.take_succ_cons]
    cases c.nested[i]? with
    | none => rfl
    | some name =>
      rw [← joined_cons_append]
      rfl

theorem map_snd_namespaceKeys (c : ContainerNames) : c.namespaceKeys.map (·.2) = c.namespaces := by
  apply List.ext_getElem?
  intro i
  rw [List.getElem?_map, getElem?_namespaceKeys]
  cases c.namespaces[i]? <;> rfl

theorem map_snd_typeKeys (c : ContainerNames) : c.typeKeys.map (·.2) = c.types := by
  apply List.ext_getElem?
  intro i
  rw [List.getElem?_map, getElem?_typeKeys]
  cases c.types[i]? <;> rfl

end ContainerNames

/-! ## Keys of containers -/

namespace Container

/-- The key of the first namespaces. -/
def namespaceKey (c : Container) (n : Nat) : String :=
  joined "." ((c.namespaces.map (·.name)).take n)

/-- The key of the first types; all namespaces stand in front. -/
def typeKey (c : Container) (n : Nat) : String :=
  qualifier (c.namespaces.map (·.name)) ++ joined "+" ((c.types.map (·.name)).take n)

/-- The key of the container. -/
def key (c : Container) : String :=
  qualifier (c.namespaces.map (·.name)) ++ joined "+" (c.types.map (·.name))

variable {c : Container} {i : Nat}

/-- Behind the key of a namespace stands a point. -/
theorem exists_key_eq_of_namespace (h : i < c.namespaces.length) :
    ∃ rest, c.key = c.namespaceKey (i + 1) ++ "." ++ rest := by
  have hlength : i + 1 ≤ (c.namespaces.map (·.name)).length := by
    rw [List.length_map]
    omega
  have hne : c.namespaces.map (·.name) ≠ [] := List.ne_nil_of_length_pos (by omega)
  rw [key, qualifier, if_neg hne, namespaceKey]
  rcases joined_eq_take "." (Nat.succ_pos i) hlength with heq | ⟨rest, heq⟩
  · rw [heq]
    exact ⟨_, rfl⟩
  · rw [heq]
    refine ⟨rest ++ "." ++ joined "+" (c.types.map (·.name)), ?_⟩
    simp only [String.append_assoc]

/-- Behind the key of a type stands a plus sign or nothing. -/
theorem exists_key_eq_of_type (h : i < c.types.length) :
    c.key = c.typeKey (i + 1) ∨ ∃ rest, c.key = c.typeKey (i + 1) ++ "+" ++ rest := by
  have hlength : i + 1 ≤ (c.types.map (·.name)).length := by
    rw [List.length_map]
    omega
  rw [key, typeKey]
  rcases joined_eq_take "+" (Nat.succ_pos i) hlength with heq | ⟨rest, heq⟩
  · exact .inl (congrArg _ heq)
  · right
    rw [heq]
    refine ⟨rest, ?_⟩
    simp only [String.append_assoc]

/-- Names and symbols of the container come from a key: they are those of its beginnings that end in
front of a separator or at the end. -/
structure Spells (symbols : SymbolTable) (c : Container) (text : String) : Prop where
  key_eq : c.key = text
  types_ne_nil : c.types ≠ []
  namespace_boundary : ∀ i < c.namespaces.length,
    ∃ rest, text = c.namespaceKey (i + 1) ++ "." ++ rest
  type_boundary : ∀ i < c.types.length,
    text = c.typeKey (i + 1) ∨ ∃ rest, text = c.typeKey (i + 1) ++ "+" ++ rest
  get?_namespace : ∀ i ns, c.namespaces[i]? = some ns →
    symbols.get? ("N:" ++ c.namespaceKey (i + 1)) = some ns.id
  get?_type : ∀ i type, c.types[i]? = some type →
    symbols.get? ("T:" ++ c.typeKey (i + 1)) = some type.id

end Container

/-! ## Interned containers -/

theorem ContainerNames.spells {symbols : SymbolTable} {names : ContainerNames}
    {namespaces : List Namespace} {types : List EnclosingType}
    (hnamespaces : List.Forall₂ (fun entry ns =>
      symbols.get? ("N:" ++ entry.1) = some ns.id ∧ entry.2 = ns.name) names.namespaceKeys namespaces)
    (htypes : List.Forall₂ (fun entry type =>
      symbols.get? ("T:" ++ entry.1) = some type.id ∧ entry.2 = type.name) names.typeKeys types) :
    Container.Spells symbols ⟨namespaces, types⟩
      (qualifier names.namespaces ++ joined "+" names.types) := by
  have hnames : namespaces.map (·.name) = names.namespaces := by
    rw [← map_eq_map_of_forall₂ (hnamespaces.imp fun _ _ h => h.2), map_snd_namespaceKeys]
  have htypeNames : types.map (·.name) = names.types := by
    rw [← map_eq_map_of_forall₂ (htypes.imp fun _ _ h => h.2), map_snd_typeKeys]
  have hkey : Container.key ⟨namespaces, types⟩ =
      qualifier names.namespaces ++ joined "+" names.types := by
    rw [Container.key, hnames, htypeNames]
  refine ⟨hkey, ?_, ?_, ?_, ?_, ?_⟩
  · rintro rfl
    cases htypeNames
  · rw [← hkey]
    exact fun i hi => Container.exists_key_eq_of_namespace hi
  · rw [← hkey]
    exact fun i hi => Container.exists_key_eq_of_type hi
  · intro i ns hns
    obtain ⟨entry, hentry, hget, -⟩ := exists_of_forall₂ hnamespaces hns
    rw [getElem?_namespaceKeys] at hentry
    obtain ⟨name, -, rfl⟩ := Option.map_eq_some_iff.1 hentry
    rw [Container.namespaceKey, hnames]
    exact hget
  · intro i type htype
    obtain ⟨entry, hentry, hget, -⟩ := exists_of_forall₂ htypes htype
    rw [getElem?_typeKeys] at hentry
    obtain ⟨name, -, rfl⟩ := Option.map_eq_some_iff.1 hentry
    rw [Container.typeKey, hnames, htypeNames]
    exact hget

theorem interns_enclosingType (m : Manifest) (key name : String) :
    Interns (m.enclosingType key name) fun t type =>
      t.get? ("T:" ++ key) = some type.id ∧ name = type.name :=
  (Interns.internKey _).bind fun _ => Interns.pure fun _ hid => ⟨hid, rfl⟩

theorem interns_namespace (key name : String) :
    Interns (do return Namespace.mk (← internKey ("N:" ++ key)) name) fun t ns =>
      t.get? ("N:" ++ key) = some ns.id ∧ name = ns.name :=
  (Interns.internKey _).bind fun _ => Interns.pure fun _ hid => ⟨hid, rfl⟩

theorem interns_containerOf (m : Manifest) (key : String) :
    Interns (m.containerOf key) fun t c => c.Spells t key := by
  unfold Manifest.containerOf
  refine Interns.bind (Interns.mapM
      (P := fun t entry ns => t.get? ("N:" ++ entry.1) = some ns.id ∧ entry.2 = ns.name)
      (fun ⟨key, name⟩ => interns_namespace key name) _) fun namespaces =>
    Interns.bind (Interns.mapM
      (P := fun t entry type => t.get? ("T:" ++ entry.1) = some type.id ∧ entry.2 = type.name)
      (fun ⟨key, name⟩ => interns_enclosingType m key name) _) fun types =>
    Interns.pure fun t htypes hnamespaces => ?_
  have hspells := ContainerNames.spells hnamespaces htypes
  rw [ContainerNames.key_ofKey, String.ofList_toList] at hspells
  exact hspells
end NativeBindings
