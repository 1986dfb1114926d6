import NativeBindings.Proofs.Text.Segments
import NativeBindings.Storage.FileTree

/-!
# Paths below a directory

A path stays below a directory if it leads through the components of the directory and goes on
without leading back.

## Main definitions

- `FilePath.IsBelow` — a path that stays below a directory

## Main statements

- `FilePath.components_join`, `FilePath.isAbsolute_join` — paths that are not absolute are joined
  component by component
-/

namespace NativeBindings
namespace FilePath

variable {base path directory : String}

/-- The components of some parts of a path. -/
def componentsOf (parts : List (List Char)) : List String :=
  (parts.map .ofList).filter fun c => c != "" && c != "."

theorem components_eq (path : String) : components path = componentsOf (segments '/' path.toList) :=
  rfl

theorem componentsOf_append (parts parts' : List (List Char)) :
    componentsOf (parts ++ parts') = componentsOf parts ++ componentsOf parts' := by
  rw [componentsOf, List.map_append, List.filter_append]
  rfl

theorem components_join (h : isAbsolute path = false) :
    components (join base path) = components base ++ components path := by
  unfold join
  rw [h, Bool.false_or]
  split
  next hempty =>
    rw [String.isEmpty_iff.1 hempty]
    rfl
  next =>
    split
    next hslash =>
      obtain ⟨front, hfront⟩ := List.getLast?_eq_some_iff.1 (beq_iff_eq.1 hslash)
      rw [components_eq, components_eq base, String.toList_append, hfront, List.append_assoc,
        List.singleton_append, segments_append_cons_append, segments_append_cons_append,
        componentsOf_append, componentsOf_append, components_eq path]
      exact congrArg (· ++ _) (List.append_nil _).symm
    next =>
      rw [components_eq, String.toList_append, String.toList_append, List.append_assoc]
      exact (congrArg componentsOf (segments_append_cons_append '/' _ _)).trans
        (componentsOf_append _ _)

theorem isAbsolute_append (h : base ≠ "") (path : String) :
    isAbsolute (base ++ path) = isAbsolute base := by
  rw [isAbsolute, isAbsolute, String.toList_append, List.head?_append_of_ne_nil _ (by simpa using h)]

theorem isAbsolute_join (h : isAbsolute path = false) :
    isAbsolute (join base path) = isAbsolute base := by
  unfold join
  rw [h, Bool.false_or]
  split
  next hempty =>
    rw [String.isEmpty_iff.1 hempty, h]
    rfl
  next hempty =>
    have hne : base ≠ "" := fun he => hempty (String.isEmpty_iff.2 he)
    split
    · exact isAbsolute_append hne path
    · rw [String.append_assoc]
      exact isAbsolute_append hne _

/-- The path starts where a directory starts, leads through it, and goes on without leading back. -/
structure IsBelow (directory path : String) : Prop where
  isAbsolute_eq : isAbsolute path = isAbsolute directory
  components : ∃ names, names ≠ [] ∧ ".." ∉ names ∧
    components path = components directory ++ names

end FilePath

end NativeBindings
