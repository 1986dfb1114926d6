import NativeBindings.Proofs.Storage.FileMap

/-!
# What a run leaves behind

The files of a run and those of earlier runs are told apart by their paths. Whatever stood in the
output directory before, afterwards a unit is there exactly if it has been produced, and a second run
finds nothing to do.

## Main definitions

- `Generator.Stores` — files and report after a run agree with its preview

## Main statements

- `Generator.run_generate` — a run puts each unit where it belongs and reports what it has found there
- `Generator.stores_outputFrom` — this is what the preview calls for
- `Generator.stores_generate` — output is exact and idempotent
-/

namespace NativeBindings

theorem FilePath.join_right_inj {base path path' : String}
    (h : isAbsolute path = isAbsolute path') : join base path = join base path' ↔ path = path' := by
  unfold join
  rw [h]
  split
  · exact Iff.rfl
  · split <;> exact String.append_right_inj _

namespace OutputUnit

/-- All file names start with the namespace and a point. -/
theorem isAbsolute_fileName (markerNamespace : String) (u v : OutputUnit) :
    FilePath.isAbsolute (u.fileName markerNamespace) =
      FilePath.isAbsolute (v.fileName markerNamespace) := by
  simp [FilePath.isAbsolute, fileName]

theorem fileName_injective (markerNamespace : String) :
    Function.Injective (fileName markerNamespace) := by
  intro u v h
  simp only [fileName, String.append_left_inj, String.append_right_inj] at h
  revert h
  cases u <;> cases v <;> decide

end OutputUnit

namespace Generator

variable {g : Generator} {directory : String} {before after : FileMap}

/-- Files and report after a run agree with its preview. -/
structure Stores (g : Generator) (directory : String) (before : FileMap) (output : Output)
    (after : FileMap) : Prop where
  /-- A unit that has been produced is there. -/
  produced : ∀ f ∈ g.preview.files, after.get? (f.path directory) = some f.content.toUTF8
  /-- Any other unit is not there. -/
  absent : ∀ name ∈ g.unitNames, name ∉ g.preview.files.map (·.name) →
    after.get? (FilePath.join directory name) = none
  /-- Nothing else changes. -/
  frame : ∀ path, path ∉ g.unitNames.map (FilePath.join directory) →
    after.get? path = before.get? path
  written : output.written = (g.preview.files.filter fun f =>
    before.get? (f.path directory) ≠ some f.content.toUTF8).map (·.path directory)
  unchanged : output.unchanged = (g.preview.files.filter fun f =>
    before.get? (f.path directory) = some f.content.toUTF8).map (·.path directory)
  removed : output.removed =
    ((g.unitNames.filter (· ∉ g.preview.files.map (·.name))).map (FilePath.join directory)).filter
      fun path => (before.get? path).isSome
  /-- No path is reported twice. -/
  nodup : (output.written ++ output.unchanged ++ output.removed).Nodup
  diagnostics : output.diagnostics = g.preview.diagnostics

theorem unitNames_nodup (g : Generator) : g.unitNames.Nodup :=
  List.Nodup.map (OutputUnit.fileName_injective g.markerNamespace) (by decide)

theorem map_name_sublist (g : Generator) : (g.preview.files.map (·.name)).Sublist g.unitNames := by
  unfold preview unitNames
  dsimp only
  induction OutputUnit.all with
  | nil => exact .refl _
  | cons u us ih =>
    rw [List.filterMap_cons]
    cases g.content? u with
    | none => exact ih.cons _
    | some content => exact ih.cons_cons _

/-- The names of units lead to different paths. -/
theorem join_inj (directory : String) {name name' : String} (h : name ∈ g.unitNames)
    (h' : name' ∈ g.unitNames) :
    FilePath.join directory name = FilePath.join directory name' ↔ name = name' := by
  obtain ⟨u, -, rfl⟩ := List.mem_map.1 h
  obtain ⟨v, -, rfl⟩ := List.mem_map.1 h'
  exact FilePath.join_right_inj (OutputUnit.isAbsolute_fileName _ _ _)

theorem stalePaths_eq (g : Generator) (directory : String) :
    g.stalePaths directory =
      (g.unitNames.filter (· ∉ g.preview.files.map (·.name))).map (FilePath.join directory) := by
  unfold stalePaths
  congr 2
  funext name
  rw [List.contains_eq_mem, decide_not]

/-- The paths of a run, of the files it writes and of those it removes. -/
theorem nodup_paths (g : Generator) (directory : String) :
    (g.preview.files.map (·.path directory) ++ g.stalePaths directory).Nodup := by
  have hnames : (g.preview.files.map (·.name) ++
      g.unitNames.filter (· ∉ g.preview.files.map (·.name))).Nodup := by
    refine List.nodup_append'.2 ⟨g.map_name_sublist.nodup g.unitNames_nodup,
      g.unitNames_nodup.filter _, ?_⟩
    intro name hname hstale
    exact of_decide_eq_true (List.mem_filter.1 hstale).2 hname
  have hmem : ∀ name ∈ g.preview.files.map (·.name) ++
      g.unitNames.filter (· ∉ g.preview.files.map (·.name)), name ∈ g.unitNames := by
    intro name hname
    rcases List.mem_append.1 hname with hname | hname
    · exact g.map_name_sublist.subset hname
    · exact List.mem_of_mem_filter hname
  have hpaths := hnames.map_on fun name hname name' hname' =>
    (join_inj directory (hmem name hname) (hmem name' hname')).1
  rw [List.map_append, List.map_map, ← stalePaths_eq] at hpaths
  exact hpaths

/-- The files that are written and those that are left alone make up the files of the run. -/
theorem filter_append_filter_perm (g : Generator) (directory : String) (before : FileMap) :
    ((g.preview.files.filter fun f =>
        before.get? (f.path directory) ≠ some f.content.toUTF8).map (·.path directory) ++
      (g.preview.files.filter fun f =>
        before.get? (f.path directory) = some f.content.toUTF8).map (·.path directory)).Perm
      (g.preview.files.map (·.path directory)) := by
  rw [← List.map_append]
  refine List.Perm.map _ (List.perm_append_comm.trans ?_)
  simp only [ne_eq, decide_not]
  exact List.filter_append_perm _ _

/-- What a run puts at which path. -/
def entries (g : Generator) (directory : String) : List (String × Option ByteArray) :=
  (g.preview.files.map fun f => (f.path directory, some f.content.toUTF8)) ++
    (g.stalePaths directory).map fun path => (path, none)

theorem map_fst_entries (g : Generator) (directory : String) :
    (g.entries directory).map (·.1) =
      g.preview.files.map (·.path directory) ++ g.stalePaths directory := by
  simp [entries, Function.comp_def]

theorem mem_unitPaths_of_mem_entries {path : String}
    (h : path ∈ (g.entries directory).map (·.1)) :
    path ∈ g.unitNames.map (FilePath.join directory) := by
  rw [map_fst_entries, stalePaths_eq, List.mem_append] at h
  rcases h with h | h
  · obtain ⟨f, hf, rfl⟩ := List.mem_map.1 h
    exact List.mem_map_of_mem (g.map_name_sublist.subset (List.mem_map_of_mem hf))
  · exact (List.filter_sublist.map _).subset h

/-- The report of a run goes by the files that it finds. -/
def outputFrom (g : Generator) (directory : String) (before : FileMap) : Output where
  written := (g.preview.files.filter fun f =>
    before.get? (f.path directory) ≠ some f.content.toUTF8).map (·.path directory)
  unchanged := (g.preview.files.filter fun f =>
    before.get? (f.path directory) = some f.content.toUTF8).map (·.path directory)
  removed := (g.stalePaths directory).filter fun path => (before.get? path).isSome
  diagnostics := g.preview.diagnostics

theorem run_generate (g : Generator) (directory : String) (before : FileMap) :
    (g.generate FileMap.system directory).run.run before =
      (.ok (g.outputFrom directory before), before.putAll (g.entries directory)) := by
  obtain ⟨hproduced, hstale, hdisjoint⟩ := List.nodup_append'.1 (g.nodup_paths directory)
  rw [← List.map_id (g.stalePaths directory)] at hstale
  unfold generate
  rw [FileSystem.run_bind (FileMap.run_mapM (FileMap.assigns_write directory) hproduced),
    FileSystem.run_bind (FileMap.run_mapM FileMap.assigns_removeStale hstale), entries,
    FileMap.putAll_append]
  refine Prod.ext (congrArg Except.ok ?_) rfl
  unfold outputFrom
  congr 1
  · rw [List.filter_map, List.map_map]
    refine congrArg (List.map _) (List.filter_congr fun f _ => ?_)
    rw [Function.comp_apply, decide_eq_decide, ite_eq_right_iff]
    simp only [reduceCtorEq, imp_false, ne_eq]
  · rw [List.filter_map, List.map_map]
    refine congrArg (List.map _) (List.filter_congr fun f _ => ?_)
    rw [Function.comp_apply, decide_eq_decide, ite_eq_left_iff]
    simp only [reduceCtorEq, imp_false, not_not]
  · -- what has been written before leaves these paths as they were
    have hkept : ∀ path ∈ g.stalePaths directory,
        (before.putAll (g.preview.files.map fun f =>
          (f.path directory, some f.content.toUTF8))).get? path = before.get? path := by
      intro path hpath
      apply FileMap.get?_putAll_of_notMem
      rw [List.map_map]
      exact fun h => hdisjoint h hpath
    rw [List.filterMap_map, ← List.filterMap_eq_filter]
    refine List.filterMap_congr fun path hpath => ?_
    rw [Function.comp_apply, hkept path hpath]
    rfl

/-- After a run everything that it is to put somewhere is there. -/
theorem get?_putAll_entries {e : String × Option ByteArray} (he : e ∈ g.entries directory) :
    (before.putAll (g.entries directory)).get? e.1 = e.2 := by
  refine FileMap.get?_putAll_of_mem ?_ he
  rw [map_fst_entries]
  exact g.nodup_paths directory

theorem stores_outputFrom (g : Generator) (directory : String) (before : FileMap) :
    g.Stores directory before (g.outputFrom directory before)
      (before.putAll (g.entries directory)) where
  produced := by
    intro f hf
    exact get?_putAll_entries (List.mem_append_left _ (List.mem_map_of_mem hf))
  absent := by
    intro name hname hmissing
    have hstale : FilePath.join directory name ∈ g.stalePaths directory := by
      rw [stalePaths_eq]
      exact List.mem_map_of_mem (List.mem_filter.2 ⟨hname, decide_eq_true hmissing⟩)
    exact get?_putAll_entries (List.mem_append_right _ (List.mem_map_of_mem hstale))
  frame := by
    intro path hpath
    exact FileMap.get?_putAll_of_notMem (mt mem_unitPaths_of_mem_entries hpath)
  written := rfl
  unchanged := rfl
  removed := by rw [outputFrom, stalePaths_eq]
  nodup := by
    refine (List.Perm.append_right _ (filter_append_filter_perm g directory before)).nodup_iff.2 ?_
    exact (List.filter_sublist.append_left _).nodup (g.nodup_paths directory)
  diagnostics := rfl

/-- A run that finds everything where it is to be has nothing to do. -/
theorem outputFrom_of_entries (h : ∀ e ∈ g.entries directory, after.get? e.1 = e.2) :
    g.outputFrom directory after =
      { written := []
        unchanged := g.preview.files.map (·.path directory)
        removed := []
        diagnostics := g.preview.diagnostics } := by
  have hproduced : ∀ f ∈ g.preview.files, after.get? (f.path directory) = some f.content.toUTF8 := by
    intro f hf
    exact h _ (List.mem_append_left _ (List.mem_map_of_mem hf))
  have hstale : ∀ path ∈ g.stalePaths directory, after.get? path = none := by
    intro path hpath
    exact h _ (List.mem_append_right _ (List.mem_map_of_mem hpath))
  unfold outputFrom
  congr 1
  · rw [List.map_eq_nil_iff, List.filter_eq_nil_iff]
    intro f hf hne
    exact of_decide_eq_true hne (hproduced f hf)
  · rw [List.filter_eq_self.2 fun f hf => decide_eq_true (hproduced f hf)]
  · rw [List.filter_eq_nil_iff]
    intro path hpath
    rw [hstale path hpath]
    exact Bool.false_ne_true

/-- Whatever files there are, a run succeeds, its files and its report agree with its preview, and
the same run has nothing more to do afterwards. -/
theorem stores_generate (g : Generator) (directory : String) (before : FileMap) :
    ∃ output after,
      (g.generate FileMap.system directory).run.run before = (.ok output, after) ∧
      g.Stores directory before output after ∧
      (g.generate FileMap.system directory).run.run after =
        (.ok {
          written := []
          unchanged := g.preview.files.map (·.path directory)
          removed := []
          diagnostics := g.preview.diagnostics }, after) := by
  refine ⟨_, _, run_generate g directory before, stores_outputFrom g directory before, ?_⟩
  have hentries : ∀ e ∈ g.entries directory,
      (before.putAll (g.entries directory)).get? e.1 = e.2 := fun _ he => get?_putAll_entries he
  rw [run_generate, outputFrom_of_entries hentries, FileMap.putAll_eq_self hentries]

end Generator
end NativeBindings
