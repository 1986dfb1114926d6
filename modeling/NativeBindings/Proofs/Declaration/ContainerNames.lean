import NativeBindings.Proofs.Declaration.ContainerKey
import NativeBindings.Proofs.Manifest.MemberKey
import NativeBindings.Proofs.Text.Segments

/-!
# Names in container keys

The parts of a key between points and plus signs are checked, but the names in it are found in
another way: points separate names only in front of the first plus sign. Both give the same names
exactly if no point stands behind a plus sign.

## Main definitions

- `HasPlainNesting` — a key without points behind a plus sign
- `ContainerNames.IsCheckedBy` — what is known of the names in a key whose parts are names

## Main statements

- `isCheckedBy_ofKey` — the names in a key whose parts are names
-/

namespace NativeBindings

/-! ## Keys -/

/-- No point stands behind a plus sign. -/
def HasPlainNesting (key : List Char) : Prop :=
  ∀ before behind, key = before ++ '+' :: behind → '.' ∉ behind

theorem hasPlainNesting_of_notMem {key : List Char} (h : '+' ∉ key) : HasPlainNesting key := by
  intro before behind heq
  exact absurd (heq ▸ List.mem_append_right before List.mem_cons_self) h

/-- It is enough to look behind the first plus sign. -/
theorem hasPlainNesting_append_iff {outer nested : List Char} (h : '+' ∉ outer) :
    HasPlainNesting (outer ++ '+' :: nested) ↔ '.' ∉ nested := by
  refine ⟨fun hplain => hplain outer nested rfl, fun hpoint before behind heq hmem => hpoint ?_⟩
  -- the first plus sign stands at or in front of the other one
  rcases List.append_eq_append_iff.1 heq with ⟨between, hbefore, hrest⟩ | ⟨between, houter, hrest⟩
  · cases between with
    | nil =>
      rw [List.nil_append, List.cons.injEq] at hrest
      exact hrest.2 ▸ hmem
    | cons c between =>
      rw [List.cons_append, List.cons.injEq] at hrest
      rw [hrest.2]
      exact List.mem_append_right _ (List.mem_cons_of_mem _ hmem)
  · cases between with
    | nil =>
      rw [List.nil_append, List.cons.injEq] at hrest
      exact hrest.2 ▸ hmem
    | cons c between =>
      rw [List.cons_append, List.cons.injEq] at hrest
      rw [houter, ← hrest.1] at h
      exact absurd (List.mem_append_right before List.mem_cons_self) h

instance (key : List Char) : Decidable (HasPlainNesting key) :=
  match h : cut? '+' key with
  | none => .isTrue (hasPlainNesting_of_notMem (notMem_of_cut?_eq_none h))
  | some (_, nested) =>
    decidable_of_iff ('.' ∉ nested) (by
      rw [append_of_cut? h, hasPlainNesting_append_iff (notMem_of_cut? h)])

/-! ## Names in a key -/

namespace ContainerNames

/-- Namespaces and the outermost type have names. All types have exactly if no point stands behind a
plus sign of the key. -/
structure IsCheckedBy (c : ContainerNames) (key : List Char) : Prop where
  namespaces : ∀ name ∈ c.namespaces, Identifier.isValid name.toList = true
  outermost : Identifier.isValid c.outermost.toList = true
  nested_iff : (∀ name ∈ c.nested, Identifier.isValid name.toList = true) ↔ HasPlainNesting key

/-- Namespaces and the outermost type are the parts in front of the first plus sign. -/
theorem segments_front_ofKey (key : List Char) :
    segments '.' ((cut? '+' key).elim key (·.1)) =
      (ofKey key).namespaces.map (·.toList) ++ [(ofKey key).outermost.toList] := by
  have houter (outer : List Char) {front : List Char × List Char}
      (h : cutLast? '.' outer = some front) :
      segments '.' outer = segments '.' front.1 ++ [front.2] := by
    rw [append_of_cutLast? h, segments_append_cons_append, segments_of_notMem (notMem_of_cutLast? h)]
  unfold ofKey
  cases cut? '+' key with
  | none =>
    cases hdot : cutLast? '.' key with
    | none => simp [hdot, segments_of_notMem (notMem_of_cutLast?_eq_none hdot)]
    | some front => simpa [hdot, Function.comp_def] using houter key hdot
  | some parts =>
    cases hdot : cutLast? '.' parts.1 with
    | none => simp [hdot, segments_of_notMem (notMem_of_cutLast?_eq_none hdot)]
    | some front => simpa [hdot, Function.comp_def] using houter parts.1 hdot

/-- The parts in front of the first plus sign are parts of the key. -/
theorem segments_front_subset (key : List Char) :
    segments '.' ((cut? '+' key).elim key (·.1)) ⊆ keyParts key := by
  rw [keyParts, flatMap_segments_comm]
  cases hcut : cut? '+' key with
  | none =>
    rw [segments_of_notMem (notMem_of_cut?_eq_none hcut), List.flatMap_singleton]
    exact List.Subset.refl _
  | some parts =>
    rw [append_of_cut? hcut, segments_append_cons (notMem_of_cut? hcut), List.flatMap_cons]
    exact List.subset_append_left _ _

/-- A nested type without points in its name has a part of the key as its name. -/
theorem mem_keyParts_of_mem_nested {key : List Char} {name : String}
    (h : name ∈ (ofKey key).nested) (hpoint : '.' ∉ name.toList) : name.toList ∈ keyParts key := by
  rw [nested_ofKey] at h
  cases hcut : cut? '+' key with
  | none =>
    rw [hcut] at h
    cases h
  | some parts =>
    rw [hcut] at h
    obtain ⟨part, hpart, rfl⟩ := List.mem_map.1 h
    rw [String.toList_ofList] at hpoint ⊢
    rw [keyParts, flatMap_segments_comm, append_of_cut? hcut, segments_append_cons_append]
    refine List.mem_flatMap.2 ⟨part, List.mem_append_right _ hpart, ?_⟩
    rw [segments_of_notMem hpoint]
    exact List.mem_singleton_self part

/-- No nested type has a point in its name exactly if none stands behind a plus sign. -/
theorem forall_nested_iff (key : List Char) :
    (∀ name ∈ (ofKey key).nested, '.' ∉ name.toList) ↔ HasPlainNesting key := by
  rw [nested_ofKey]
  cases hcut : cut? '+' key with
  | none => exact iff_of_true nofun (hasPlainNesting_of_notMem (notMem_of_cut?_eq_none hcut))
  | some parts =>
    rw [append_of_cut? hcut, hasPlainNesting_append_iff (notMem_of_cut? hcut)]
    simp only [Option.elim_some, List.forall_mem_map, String.toList_ofList]
    constructor
    · intro hnested hmem
      rcases eq_or_mem_of_mem_segments '+' hmem with heq | ⟨part, hpart, hpoint⟩
      · cases heq
      · exact hnested part hpart hpoint
    · intro hpoint part hpart hmem
      rw [← joinSegments_segments '+' parts.2] at hpoint
      exact hpoint (mem_joinSegments_of_mem hpart hmem)

theorem isCheckedBy_ofKey {key : List Char}
    (h : ∀ part ∈ keyParts key, Identifier.isValid part = true) : (ofKey key).IsCheckedBy key := by
  have hfront : ∀ part ∈ (ofKey key).namespaces.map (·.toList) ++ [(ofKey key).outermost.toList],
      Identifier.isValid part = true := by
    intro part hpart
    rw [← segments_front_ofKey] at hpart
    exact h part (segments_front_subset key hpart)
  refine ⟨fun name hname => ?_, ?_, ?_⟩
  · exact hfront _ (List.mem_append_left _ (List.mem_map_of_mem hname))
  · exact hfront _ (List.mem_append_right _ List.mem_cons_self)
  · rw [← forall_nested_iff]
    constructor
    · intro hvalid name hname
      exact Identifier.notMem_of_isPart_eq_false (hvalid name hname) (by decide) (by decide +kernel)
    · intro hpoint name hname
      exact h _ (mem_keyParts_of_mem_nested hname (hpoint name hname))

end ContainerNames

/-! ## Containers -/

/-- The names in a container are those of a key, and its types have the type parameters with which a
manifest declares them. -/
structure Container.IsNamedBy (m : Manifest) (names : ContainerNames) (c : Container) : Prop where
  namespaces : c.namespaces.map (·.name) = names.namespaces
  types : c.types.map (·.name) = names.types
  typeParams : ∀ type ∈ c.types, ∃ key, type.typeParams = ((m.types.get? key).getD {}).typeParams

theorem interns_containerOf_named (m : Manifest) (key : String) :
    Interns (m.containerOf key) fun _ c => c.IsNamedBy m (.ofKey key.toList) := by
  unfold Manifest.containerOf
  refine Interns.bind (Interns.mapM (P := fun _ entry ns => entry.2 = ns.name)
      (fun ⟨key, name⟩ => (interns_namespace key name).mono fun _ _ h => h.2) _) fun namespaces =>
    Interns.bind (Interns.mapM (P := fun _ entry type => entry.2 = type.name ∧
        ∃ key, type.typeParams = ((m.types.get? key).getD {}).typeParams)
      (fun ⟨key, name⟩ => (Interns.internKey _).bind fun _ => Interns.pure fun _ _ =>
        ⟨rfl, key, rfl⟩) _) fun types => Interns.pure fun _ htypes hnamespaces => ?_
  refine ⟨?_, ?_, fun type htype => ?_⟩
  · rw [← map_eq_map_of_forall₂ hnamespaces, ContainerNames.map_snd_namespaceKeys]
  · rw [← map_eq_map_of_forall₂ (htypes.imp fun _ _ h => h.1), ContainerNames.map_snd_typeKeys]
  · obtain ⟨_, -, -, hparams⟩ := exists_of_mem_of_forall₂ htypes htype
    exact hparams

end NativeBindings
