import Mathlib
import NativeBindings.Proofs.Generation.Output
import NativeBindings.Proofs.Manifest.Declarations
import NativeBindings.Proofs.Storage.PathComponents
import NativeBindings.Proofs.Storage.Recording

/-!
# Where a run changes files

A run writes and removes files only under the names of its units. These start with the namespace of
the marker types, which is not checked, so that files stay below the output directory exactly if the
namespace, read as the start of a path, keeps them there.

## Main definitions

- `FilePath.KeepsBelow` — a start of names that keeps files below their directory
- `Generator.StaysBelow` — a run that changes only files below its directory

## Main statements

- `Generator.changes_generate` — a run changes only files of units
- `Generator.staysBelow_iff` — which runs stay below all directories
-/

namespace NativeBindings

/-! ## File names of units -/

/-- The text is not the start of an absolute path, and behind none of its slashes but the last one
two points lead back. -/
def FilePath.KeepsBelow (start : String) : Prop :=
  isAbsolute start = false ∧ ['.', '.'] ∉ (segments '/' start.toList).dropLast

namespace OutputUnit

variable {markerNamespace directory : String}

/-- What stands behind the namespace in the file name of a unit. -/
def nameEnd (u : OutputUnit) : List Char := ("." ++ u.title ++ ".g." ++ fileExtension).toList

theorem toList_fileName (markerNamespace : String) (u : OutputUnit) :
    (u.fileName markerNamespace).toList = markerNamespace.toList ++ u.nameEnd := by
  simp only [fileName, nameEnd, String.toList_append, List.append_assoc]

theorem isAbsolute_fileName_eq (markerNamespace : String) (u : OutputUnit) :
    FilePath.isAbsolute (u.fileName markerNamespace) = FilePath.isAbsolute markerNamespace := by
  unfold FilePath.isAbsolute
  rw [toList_fileName]
  cases markerNamespace.toList with
  | nil => cases u <;> decide
  | cons c cs => rfl

/-- The last part of the namespace becomes the name of the file, the others those of directories. -/
theorem components_fileName (markerNamespace : String) (u : OutputUnit) :
    ∃ name, name ≠ ".." ∧ FilePath.components (u.fileName markerNamespace) =
      FilePath.componentsOf (segments '/' markerNamespace.toList).dropLast ++ [name] := by
  have hsplit := List.dropLast_concat_getLast (segments_ne_nil '/' markerNamespace.toList)
  have hend : '/' ∉ u.nameEnd := by cases u <;> decide
  have hparts := segments_append_of_notMem hsplit.symm hend
  generalize (segments '/' markerNamespace.toList).getLast _ = last at hparts
  have hlong : 2 < (String.ofList (last ++ u.nameEnd)).toList.length := by
    rw [String.toList_ofList, List.length_append]
    have : 2 < u.nameEnd.length := by cases u <;> decide
    omega
  have hne (s : String) (hs : s.toList.length ≤ 2) : String.ofList (last ++ u.nameEnd) ≠ s := by
    rintro rfl
    omega
  refine ⟨.ofList (last ++ u.nameEnd), hne ".." (by decide), ?_⟩
  rw [FilePath.components_eq, toList_fileName, hparts, FilePath.componentsOf_append]
  refine congrArg _ (List.filter_eq_self.2 fun name hname => ?_)
  rw [List.map_singleton, List.mem_singleton] at hname
  rw [hname, Bool.and_eq_true, bne_iff_ne, bne_iff_ne]
  exact ⟨hne "" (by decide), hne "." (by decide)⟩

theorem mem_componentsOf_iff {parts : List (List Char)} :
    ".." ∈ FilePath.componentsOf parts ↔ ['.', '.'] ∈ parts := by
  unfold FilePath.componentsOf
  rw [List.mem_filter, List.mem_map, and_iff_left (by decide)]
  constructor
  · rintro ⟨part, hpart, heq⟩
    have hdots : part = ['.', '.'] := by
      rw [← String.toList_inj, String.toList_ofList] at heq
      exact heq
    exact hdots ▸ hpart
  · intro h
    exact ⟨_, h, rfl⟩

theorem isBelow_join (h : FilePath.KeepsBelow markerNamespace) (directory : String)
    (u : OutputUnit) :
    FilePath.IsBelow directory (FilePath.join directory (u.fileName markerNamespace)) := by
  have habsolute := (isAbsolute_fileName_eq markerNamespace u).trans h.1
  obtain ⟨name, hname, hcomponents⟩ := components_fileName markerNamespace u
  refine ⟨FilePath.isAbsolute_join habsolute,
    FilePath.componentsOf (segments '/' markerNamespace.toList).dropLast ++ [name],
    List.append_ne_nil_of_right_ne_nil _ (List.cons_ne_nil name []), ?_, ?_⟩
  · rw [List.mem_append, mem_componentsOf_iff, List.mem_singleton]
    exact not_or.2 ⟨h.2, hname.symm⟩
  · rw [FilePath.components_join habsolute, hcomponents]

theorem keepsBelow_of_isBelow (hdirectory : FilePath.isAbsolute directory = false) {u : OutputUnit}
    (h : FilePath.IsBelow directory (FilePath.join directory (u.fileName markerNamespace))) :
    FilePath.KeepsBelow markerNamespace := by
  have habsolute : FilePath.isAbsolute markerNamespace = false := by
    rw [← isAbsolute_fileName_eq markerNamespace u]
    by_contra hroot
    rw [Bool.not_eq_false] at hroot
    -- an absolute name takes the place of the directory
    have hjoin : FilePath.join directory (u.fileName markerNamespace) =
        u.fileName markerNamespace := by
      rw [FilePath.join, if_pos (by rw [hroot, Bool.true_or])]
    have heq := h.isAbsolute_eq
    rw [hjoin, hroot, hdirectory] at heq
    cases heq
  refine ⟨habsolute, fun hback => ?_⟩
  obtain ⟨names, -, hnames, hcomponents⟩ := h.components
  obtain ⟨name, -, hfile⟩ := components_fileName markerNamespace u
  rw [FilePath.components_join ((isAbsolute_fileName_eq _ u).trans habsolute), hfile,
    List.append_cancel_left_eq] at hcomponents
  rw [← hcomponents, List.mem_append, mem_componentsOf_iff] at hnames
  exact hnames (.inl hback)

end OutputUnit

/-! ## Empty file systems -/

namespace FileSystem

/-- A file system in which there is nothing, and nothing goes wrong. -/
def blank : FileSystem (StateM Unit) where
  read? _ := pure none
  isFile _ := pure false
  makeDirectory _ := pure true
  write _ _ := pure true
  remove _ := pure true

theorem run_write_blank (directory : String) (f : SourceFile) (changed : List String) :
    (f.write blank.recorded directory).run.run ⟨(), changed⟩ =
      (.ok (f.path directory, .written), ⟨(), changed ++ [f.path directory]⟩) := by
  unfold SourceFile.write update
  cases FilePath.parent? (f.path directory) <;> rfl

theorem run_mapM_write_blank (directory : String) (files : List SourceFile)
    (changed : List String) :
    (files.mapM (SourceFile.write blank.recorded directory)).run.run ⟨(), changed⟩ =
      (.ok (files.map fun f => (f.path directory, .written)),
        ⟨(), changed ++ files.map (·.path directory)⟩) := by
  induction files generalizing changed with
  | nil =>
    rw [List.map_nil, List.map_nil, List.append_nil]
    rfl
  | cons f files ih =>
    rw [List.mapM_cons, run_bind (run_write_blank directory f changed), run_bind (ih _),
      List.append_assoc]
    rfl

theorem run_mapM_removeStale_blank (paths : List String) (changed : List String) :
    (paths.mapM (removeStale blank.recorded)).run.run ⟨(), changed⟩ =
      (.ok (paths.map fun _ => none), ⟨(), changed⟩) := by
  induction paths with
  | nil => rfl
  | cons path paths ih =>
    have hnone : (removeStale blank.recorded path).run.run ⟨(), changed⟩ =
        (.ok none, ⟨(), changed⟩) := rfl
    rw [List.mapM_cons, run_bind hnone, run_bind ih]
    rfl

end FileSystem

/-! ## Runs -/

namespace Generator

variable {σ : Type}

/-- Whatever file system it runs on, a run changes only files of its units. -/
theorem changes_generate (g : Generator) (fs : FileSystem (StateM σ)) (directory : String) :
    Changes (· ∈ g.unitNames.map (FilePath.join directory)) (g.generate fs directory)
      (g.generate fs.recorded directory) := by
  refine (Changes.mapM fun f hf => changes_write ?_).bind fun updates =>
    (Changes.mapM fun path hpath => changes_removeStale ?_).bind fun removed => .pure _ _
  · exact List.mem_map_of_mem (g.map_name_sublist.subset (List.mem_map_of_mem hf))
  · rw [stalePaths_eq] at hpath
    exact (List.filter_sublist.map _).subset hpath

/-- Where there is nothing, a run writes all its files. -/
theorem changed_generate_blank (g : Generator) (directory : String) :
    ((g.generate FileSystem.blank.recorded directory).run.run ⟨(), []⟩).2.changed =
      g.preview.files.map (·.path directory) := by
  unfold generate
  rw [FileSystem.run_bind (FileSystem.run_mapM_write_blank directory g.preview.files []),
    FileSystem.run_bind (FileSystem.run_mapM_removeStale_blank (g.stalePaths directory) _)]
  rfl

/-- The unit of import markers is always written. -/
theorem join_mem_changed_generate_blank (g : Generator) (directory : String) :
    FilePath.join directory (OutputUnit.importMarkers.fileName g.markerNamespace) ∈
      ((g.generate FileSystem.blank.recorded directory).run.run ⟨(), []⟩).2.changed := by
  rw [changed_generate_blank]
  exact List.mem_cons_self

/-- On any file system the run does what it does unwatched, and changes only files below a
directory. -/
def StaysBelow (g : Generator) (directory : String) : Prop :=
  ∀ (σ : Type) (fs : FileSystem (StateM σ)),
    Changes (FilePath.IsBelow directory) (g.generate fs directory) (g.generate fs.recorded directory)

theorem StaysBelow.isBelow_of_mem {g : Generator} {directory path : String}
    (h : g.StaysBelow directory)
    (hpath : path ∈
      ((g.generate FileSystem.blank.recorded directory).run.run ⟨(), []⟩).2.changed) :
    FilePath.IsBelow directory path := by
  obtain ⟨paths, hpaths, hrun⟩ := h Unit FileSystem.blank () []
  rw [hrun] at hpath
  exact hpaths path hpath

/-- A run stays below every directory exactly if its namespace is no start of an absolute path and
holds no step back in front of its last slash. -/
theorem staysBelow_iff (g : Generator) :
    (∀ directory, g.StaysBelow directory) ↔ FilePath.KeepsBelow g.markerNamespace := by
  constructor
  · intro h
    exact OutputUnit.keepsBelow_of_isBelow rfl
      ((h "out").isBelow_of_mem (g.join_mem_changed_generate_blank "out"))
  · intro h directory σ fs s changed
    obtain ⟨paths, hpaths, hrun⟩ := g.changes_generate fs directory s changed
    refine ⟨paths, fun path hpath => ?_, hrun⟩
    obtain ⟨name, hname, rfl⟩ := List.mem_map.1 (hpaths path hpath)
    obtain ⟨u, -, rfl⟩ := List.mem_map.1 hname
    exact OutputUnit.isBelow_join h directory u

/-- A manifest that only chooses the namespace of the marker types. -/
def namespaceSource (markerNamespace : String) : SourceText :=
  ⟨("[generator]\nnamespace = \"" ++ markerNamespace ++ "\"\n").toList, "natbind.toml"⟩

/-- What such a manifest says. -/
def namespaceManifest (markerNamespace : String) : Manifest where
  source := namespaceSource markerNamespace
  generator := { markerNamespace := some markerNamespace }
  compilation := {}
  types := []
  members := []

/-- A namespace that leads out of the output directory is accepted, and files are written there. -/
theorem exists_not_isBelow :
    let path := "out/../Demo.NativeImportAttributes.g.cs"
    ∃ g, Generator.parse (namespaceSource "../Demo") = .ok g ∧
      path ∈ ((g.generate FileSystem.blank.recorded "out").run.run ⟨(), []⟩).2.changed ∧
      ¬ FilePath.IsBelow "out" path := by
  intro path
  obtain ⟨g, hparse, hnamespace⟩ := exists_parse_of_read markerNamespace
    (namespaceSource "../Demo") (namespaceManifest "../Demo") "../Demo" (by cbv)
    (by decide +kernel) (by decide +kernel)
  have hpath : FilePath.join "out" (OutputUnit.importMarkers.fileName g.markerNamespace) = path := by
    rw [hnamespace]
    decide +kernel
  refine ⟨g, hparse, hpath ▸ g.join_mem_changed_generate_blank "out", fun hbelow => ?_⟩
  rw [← hpath] at hbelow
  have hkeeps := OutputUnit.keepsBelow_of_isBelow rfl hbelow
  rw [hnamespace] at hkeeps
  exact hkeeps.2 (by decide +kernel)

end Generator
end NativeBindings
