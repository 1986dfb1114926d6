import NativeBindings.Binding.Validation

/-!
# Markers and bindings

A binding takes over what the marker of its method says, and it is valid only if generated code may
name its library and its condition.

## Main definitions

- `Marker.source?`, `Marker.kind?`, `Marker.conventions` — what a marker says about an import

## Main statements

- `Binding.exists_marker_of_ofMember?` — what a binding takes over
- `Binding.rule_library_of_validate`, `Binding.rule_condition_of_validate` — what a valid binding
  names
-/

namespace NativeBindings

/-- The source of the import that a marker asks for. -/
def Marker.source? : Marker → Option ImportSource
  | symbol source _ | function source _ => some source
  | constant .. => none

/-- What a marker asks to be bound to. -/
def Marker.kind? : Marker → Option BindingKind
  | symbol _ access => some (.symbol (.ofRaw access))
  | function _ conventions => some (.function conventions)
  | constant .. => none

/-- The calling conventions of a function. -/
def Marker.conventions : Marker → List NamedType
  | function _ conventions => conventions
  | symbol .. | constant .. => []

/-- Only functions have calling conventions. -/
theorem Marker.kind?_of_conventions_ne_nil {marker : Marker} (h : marker.conventions ≠ []) :
    marker.kind? = some (.function marker.conventions) := by
  cases marker with
  | function => rfl
  | symbol | constant => exact absurd rfl h

namespace Binding

variable {m : Member} {b : Binding} {rule : AccessRule} {kind : BindingKind}

theorem of_ofSource? {source : ImportSource} (h : ofSource? m source kind = some b) :
    source.library = some b.library ∧ source.condition = b.condition ∧ b.kind = kind := by
  obtain ⟨library, hlibrary, rfl⟩ := Option.map_eq_some_iff.1 h
  exact ⟨hlibrary, rfl, rfl⟩

/-- Library, condition and kind of a binding are those of the marker. -/
theorem exists_marker_of_ofMember? (h : ofMember? m = some b) :
    ∃ marker source, m.marker = some marker ∧ marker.source? = some source ∧
      source.library = some b.library ∧ source.condition = b.condition ∧
      marker.kind? = some b.kind := by
  unfold ofMember? at h
  split at h
  · split at h
    next source access hmarker =>
      obtain ⟨hlibrary, hcondition, hkind⟩ := of_ofSource? h
      exact ⟨_, source, hmarker, rfl, hlibrary, hcondition, congrArg some hkind.symm⟩
    next source conventions hmarker =>
      obtain ⟨hlibrary, hcondition, hkind⟩ := of_ofSource? h
      exact ⟨_, source, hmarker, rfl, hlibrary, hcondition, congrArg some hkind.symm⟩
    · cases h
    · cases h
  · cases h

/-- A valid function stays a function with its conventions. -/
theorem kind_eq_of_validate {conventions : List NamedType} (h : b.validate rule = .ok kind)
    (hkind : b.kind = .function conventions) : kind = .function conventions := by
  simp only [validate, hkind] at h
  split at h
  · cases h
  split at h
  · cases h
  split at h
  · cases h
  split at h
  · exact (Except.ok.inj h).symm
  · cases h

/-- Generated code may name the library of a valid binding. -/
theorem rule_library_of_validate (h : b.validate rule = .ok kind) : rule b.library = true := by
  cases hrule : rule b.library with
  | true => rfl
  | false =>
    simp only [validate, hrule, Bool.not_false, if_true] at h
    split at h <;> cases h

/-- Generated code may name the condition of a valid binding. -/
theorem rule_condition_of_validate (h : b.validate rule = .ok kind) :
    ∀ c ∈ b.condition, rule c = true := by
  intro c hc
  cases hrule : rule c with
  | true => rfl
  | false =>
    have hfilter : b.condition.filter (!rule ·) = some c := by
      rw [Option.mem_def.1 hc, Option.filter_some, hrule]
      rfl
    unfold validate at h
    rw [hfilter] at h
    dsimp only at h
    split at h
    · cases h
    split at h <;> cases h

end Binding
end NativeBindings
