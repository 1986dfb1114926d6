import Mathlib
import NativeBindings.Generation.Output

/-!
# File maps

A file system of which only the files are known, by the texts of their paths. Files hold bytes, so
not every file can be read as a text. Nothing goes wrong here.

## Main definitions

- `FileMap.system` — the map as a file system
- `FileMap.Assigns` — an action settles what stands at one path and answers by what stood there

## Main statements

- `FileMap.assigns_write`, `FileMap.assigns_removeStale` — what is done to one file of a run
- `FileMap.run_mapM` — actions at different paths do not see each other
-/

namespace NativeBindings

/-- An action after one that succeeds. -/
theorem FileSystem.run_bind {σ α β : Type} {s s' : σ} {action : ExceptT StorageError (StateM σ) α}
    {next : α → ExceptT StorageError (StateM σ) β} {a : α} (h : action.run.run s = (.ok a, s')) :
    (action >>= next).run.run s = (next a).run.run s' := by
  rw [ExceptT.run_bind, StateT.run_bind, h]
  rfl

/-- The bytes of each file by its path. -/
@[ext]
structure FileMap where
  get? : String → Option ByteArray

namespace FileMap

variable {files after : FileMap} {path : String} {bytes? : Option ByteArray} {α β : Type}

/-- The text of a file, if it is one. -/
def read? (files : FileMap) (path : String) : Option String :=
  (files.get? path).bind String.fromUTF8?

/-- The files with something else, or nothing, at a path. -/
def put (files : FileMap) (path : String) (bytes? : Option ByteArray) : FileMap :=
  ⟨Function.update files.get? path bytes?⟩

/-- The map as a file system. -/
def system : FileSystem (StateM FileMap) where
  read? path := fun files => (files.read? path, files)
  isFile path := fun files => ((files.get? path).isSome, files)
  makeDirectory _ := fun files => (true, files)
  write path content := fun files => (true, files.put path (some content.toUTF8))
  remove path := fun files => ((files.get? path).isSome, files.put path none)

theorem fromUTF8?_eq_some_iff {bytes : ByteArray} {s : String} :
    String.fromUTF8? bytes = some s ↔ bytes = s.toUTF8 := by
  unfold String.fromUTF8?
  split
  next h =>
    rw [Option.some_inj, ← String.toByteArray_inj]
    rfl
  next h =>
    refine iff_of_false nofun ?_
    rintro rfl
    exact h s.isValidUTF8

theorem read?_eq_some_iff {content : String} :
    files.read? path = some content ↔ files.get? path = some content.toUTF8 := by
  simp only [read?, Option.bind_eq_some_iff, fromUTF8?_eq_some_iff, exists_eq_right]

theorem get?_put_self : (files.put path bytes?).get? path = bytes? := Function.update_self ..

theorem get?_put_of_ne {path' : String} (h : path' ≠ path) :
    (files.put path bytes?).get? path' = files.get? path' :=
  Function.update_of_ne h ..

theorem put_eq_self (h : files.get? path = bytes?) : files.put path bytes? = files := by
  subst h
  exact FileMap.ext (Function.update_eq_self ..)

/-! ## Actions -/

theorem run_ensure {action : StateM FileMap Bool} {error : StorageError}
    (h : action.run files = (true, after)) :
    (FileSystem.ensure action error).run.run files = (.ok (), after) := by
  have hlift : (liftM action : ExceptT StorageError (StateM FileMap) Bool).run.run files =
      (.ok true, after) := by
    show (ExceptT.lift action).run.run files = _
    rw [ExceptT.run_lift, StateT.run_map, h]
    rfl
  exact FileSystem.run_bind hlift

/-- The action succeeds from any files. It decides what stands at one path, and its answer depends on
what stood there. -/
def Assigns (action : ExceptT StorageError (StateM FileMap) α) (path : String)
    (bytes? : Option ByteArray) (answer : Option ByteArray → α) : Prop :=
  ∀ files : FileMap, action.run.run files = (.ok (answer (files.get? path)), files.put path bytes?)

theorem assigns_update (path content : String) :
    Assigns (system.update path content) path (some content.toUTF8) fun old? =>
      if old? = some content.toUTF8 then .unchanged else .written := by
  intro files
  have hread : (liftM (system.read? path) : ExceptT StorageError (StateM FileMap) _).run.run files =
      (.ok (files.read? path), files) := rfl
  have hmake (parent : String) : (FileSystem.ensure (system.makeDirectory parent)
      (.create parent)).run.run files = (.ok (), files) := run_ensure rfl
  have hwrite : (FileSystem.ensure (system.write path content) (.write path)).run.run files =
      (.ok (), files.put path (some content.toUTF8)) := run_ensure rfl
  unfold FileSystem.update
  rw [FileSystem.run_bind hread]
  beta_reduce
  -- a file that is no text is not read, but then it does not have the content either
  by_cases h : files.get? path = some content.toUTF8
  · rw [if_pos (read?_eq_some_iff.2 h), if_pos h, put_eq_self h]
    rfl
  · rw [if_neg (mt read?_eq_some_iff.1 h), if_neg h]
    cases FilePath.parent? path with
    | none => exact FileSystem.run_bind hwrite
    | some parent => exact (FileSystem.run_bind (hmake parent)).trans (FileSystem.run_bind hwrite)

theorem assigns_write (directory : String) (f : SourceFile) :
    Assigns (f.write system directory) (f.path directory) (some f.content.toUTF8) fun old? =>
      (f.path directory, if old? = some f.content.toUTF8 then .unchanged else .written) := by
  intro files
  exact FileSystem.run_bind (assigns_update _ _ files)

theorem assigns_removeStale (path : String) :
    Assigns (removeStale system path) path none fun old? =>
      if old?.isSome then some path else none := by
  intro files
  have hasks : (liftM (system.isFile path) : ExceptT StorageError (StateM FileMap) _).run.run files =
      (.ok (files.get? path).isSome, files) := rfl
  unfold removeStale
  rw [FileSystem.run_bind hasks]
  beta_reduce
  by_cases h : (files.get? path).isSome = true
  · have hremove : (system.remove path).run files = (true, files.put path none) :=
      congrArg (·, files.put path none) h
    rw [if_pos h, if_pos h]
    exact FileSystem.run_bind (run_ensure hremove)
  · rw [if_neg h, if_neg h, put_eq_self (Option.not_isSome_iff_eq_none.1 h)]
    rfl

/-! ## Several actions -/

/-- Several assignments one after the other. -/
def putAll (files : FileMap) (entries : List (String × Option ByteArray)) : FileMap :=
  entries.foldl (fun files e => files.put e.1 e.2) files

theorem putAll_append (files : FileMap) (entries entries' : List (String × Option ByteArray)) :
    files.putAll (entries ++ entries') = (files.putAll entries).putAll entries' :=
  List.foldl_append

theorem get?_putAll_of_notMem {entries : List (String × Option ByteArray)}
    (h : path ∉ entries.map (·.1)) : (files.putAll entries).get? path = files.get? path := by
  induction entries generalizing files with
  | nil => rfl
  | cons e entries ih =>
    rw [List.map_cons, List.mem_cons, not_or] at h
    exact (ih h.2).trans (get?_put_of_ne h.1)

theorem get?_putAll_of_mem {entries : List (String × Option ByteArray)}
    (hnodup : (entries.map (·.1)).Nodup) (h : (path, bytes?) ∈ entries) :
    (files.putAll entries).get? path = bytes? := by
  induction entries generalizing files with
  | nil => cases h
  | cons e entries ih =>
    rw [List.map_cons, List.nodup_cons] at hnodup
    rcases List.mem_cons.1 h with rfl | h
    · exact (get?_putAll_of_notMem hnodup.1).trans get?_put_self
    · exact ih hnodup.2 h

theorem putAll_eq_self {entries : List (String × Option ByteArray)}
    (h : ∀ e ∈ entries, files.get? e.1 = e.2) : files.putAll entries = files := by
  induction entries with
  | nil => rfl
  | cons e entries ih =>
    rw [List.forall_mem_cons] at h
    rw [putAll, List.foldl_cons, put_eq_self h.1]
    exact ih h.2

/-- Actions at different paths answer by what stood there at first. -/
theorem run_mapM {action : β → ExceptT StorageError (StateM FileMap) α} {place : β → String}
    {content? : β → Option ByteArray} {answer : β → Option ByteArray → α}
    (hassigns : ∀ b, Assigns (action b) (place b) (content? b) (answer b)) {bs : List β}
    (hnodup : (bs.map place).Nodup) :
    (bs.mapM action).run.run files =
      (.ok (bs.map fun b => answer b (files.get? (place b))),
        files.putAll (bs.map fun b => (place b, content? b))) := by
  induction bs generalizing files with
  | nil => rfl
  | cons b bs ih =>
    rw [List.map_cons, List.nodup_cons] at hnodup
    rw [List.mapM_cons, FileSystem.run_bind (hassigns b files), FileSystem.run_bind (ih hnodup.2)]
    have hanswers : ∀ b' ∈ bs, answer b' ((files.put (place b) (content? b)).get? (place b')) =
        answer b' (files.get? (place b')) := by
      intro b' hb'
      have hne : place b' ≠ place b := fun heq => hnodup.1 (heq ▸ List.mem_map_of_mem hb')
      rw [get?_put_of_ne hne]
    rw [List.map_congr_left hanswers]
    rfl

end FileMap
end NativeBindings
