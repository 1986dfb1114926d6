import NativeBindings.Proofs.Storage.FileMap

/-!
# Recorded changes

A file system can be watched: it does what it did before, and the paths at which it is asked to write
or to remove a file are noted. So it can be said of any file system which files an action changes.

## Main definitions

- `FileSystem.recorded` — a file system that is watched
- `Changes` — an action as it runs on a watched file system, with the paths that it changes

## Main statements

- `Changes.bind`, `Changes.mapM` — actions one after the other
- `changes_write`, `changes_removeStale` — what is done to one file of a run
-/

namespace NativeBindings

variable {σ α β : Type}

/-- The state of a watched file system, with the paths that have been changed. -/
structure Recorded (σ : Type) where
  state : σ
  changed : List String

/-- What an operation does to the state of a watched file system. -/
def Recorded.lift (action : StateM σ α) : StateM (Recorded σ) α := fun s =>
  let (a, state) := action s.state
  (a, { s with state })

/-- An operation that changes the file at a path. -/
def Recorded.change (path : String) (action : StateM σ α) : StateM (Recorded σ) α := fun s =>
  let (a, state) := action s.state
  (a, ⟨state, s.changed ++ [path]⟩)

/-- The file system with a record of the paths at which it writes or removes files. -/
def FileSystem.recorded (fs : FileSystem (StateM σ)) : FileSystem (StateM (Recorded σ)) where
  read? path := Recorded.lift (fs.read? path)
  isFile path := Recorded.lift (fs.isFile path)
  makeDirectory path := Recorded.lift (fs.makeDirectory path)
  write path content := Recorded.change path (fs.write path content)
  remove path := Recorded.change path (fs.remove path)

/-- A watched action does what it does otherwise, and all paths that it changes have a property. -/
def Changes (P : String → Prop) (action : ExceptT StorageError (StateM σ) α)
    (watched : ExceptT StorageError (StateM (Recorded σ)) α) : Prop :=
  ∀ s changed, ∃ paths, (∀ path ∈ paths, P path) ∧
    watched.run.run ⟨s, changed⟩ =
      ((action.run.run s).1, ⟨(action.run.run s).2, changed ++ paths⟩)

namespace Changes

variable {P : String → Prop} {action : ExceptT StorageError (StateM σ) α}
  {watched : ExceptT StorageError (StateM (Recorded σ)) α}
  {next : α → ExceptT StorageError (StateM σ) β}
  {watchedNext : α → ExceptT StorageError (StateM (Recorded σ)) β}

theorem pure (P : String → Prop) (a : α) :
    Changes P (pure a : ExceptT StorageError (StateM σ) α) (pure a) :=
  fun _ changed => ⟨[], List.forall_mem_nil _, by rw [List.append_nil]; rfl⟩

theorem throw (P : String → Prop) (error : StorageError) :
    Changes P (throw error : ExceptT StorageError (StateM σ) α) (throw error) :=
  fun _ changed => ⟨[], List.forall_mem_nil _, by rw [List.append_nil]; rfl⟩

theorem lift (P : String → Prop) (operation : StateM σ α) :
    Changes P (liftM operation : ExceptT StorageError (StateM σ) α)
      (liftM (Recorded.lift operation)) :=
  fun _ changed => ⟨[], List.forall_mem_nil _, by rw [List.append_nil]; rfl⟩

theorem change {path : String} (h : P path) (operation : StateM σ α) :
    Changes P (liftM operation : ExceptT StorageError (StateM σ) α)
      (liftM (Recorded.change path operation)) :=
  fun _ _ => ⟨[path], List.forall_mem_singleton.2 h, rfl⟩

theorem bind (h : Changes P action watched) (hnext : ∀ a, Changes P (next a) (watchedNext a)) :
    Changes P (action >>= next) (watched >>= watchedNext) := by
  intro s changed
  obtain ⟨paths, hpaths, hwatched⟩ := h s changed
  rcases hrun : action.run.run s with ⟨e | a, s'⟩
  · rw [hrun] at hwatched
    refine ⟨paths, hpaths, ?_⟩
    rw [ExceptT.run_bind, StateT.run_bind, hwatched, ExceptT.run_bind, StateT.run_bind, hrun]
    rfl
  · -- the paths of the next action come behind those of the first
    rw [hrun] at hwatched
    obtain ⟨paths', hpaths', hwatched'⟩ := hnext a s' (changed ++ paths)
    refine ⟨paths ++ paths', List.forall_mem_append.2 ⟨hpaths, hpaths'⟩, ?_⟩
    rw [FileSystem.run_bind hrun, FileSystem.run_bind hwatched, ← List.append_assoc]
    exact hwatched'

theorem mapM {f : β → ExceptT StorageError (StateM σ) α}
    {f' : β → ExceptT StorageError (StateM (Recorded σ)) α} {bs : List β}
    (h : ∀ b ∈ bs, Changes P (f b) (f' b)) : Changes P (bs.mapM f) (bs.mapM f') := by
  induction bs with
  | nil => exact pure P []
  | cons b bs ih =>
    rw [List.forall_mem_cons] at h
    rw [List.mapM_cons, List.mapM_cons]
    exact h.1.bind fun _ => (ih h.2).bind fun _ => pure P _

end Changes

section Operations

variable {P : String → Prop} {fs : FileSystem (StateM σ)} {path : String}

theorem changes_ensure {operation : StateM σ Bool} {watched : StateM (Recorded σ) Bool}
    (h : Changes P (liftM operation : ExceptT StorageError (StateM σ) Bool) (liftM watched))
    (error : StorageError) :
    Changes P (FileSystem.ensure operation error) (FileSystem.ensure watched error) := by
  refine h.bind fun a => ?_
  cases a with
  | true => exact .pure P ()
  | false => exact .throw P error

theorem changes_update (h : P path) (content : String) :
    Changes P (fs.update path content) (fs.recorded.update path content) := by
  have hwrite : Changes P
      (do FileSystem.ensure (fs.write path content) (.write path); return Update.written)
      (do FileSystem.ensure (fs.recorded.write path content) (.write path); return .written) :=
    (changes_ensure (.change h _) _).bind fun _ => .pure P _
  refine (Changes.lift P (fs.read? path)).bind fun old? => ?_
  split
  · exact .pure P _
  · dsimp only
    split
    · exact (changes_ensure (.lift P _) _).bind fun _ => hwrite
    · exact hwrite

/-- Writing a file of a run changes the file at its path, if any. -/
theorem changes_write {f : SourceFile} {directory : String} (h : P (f.path directory)) :
    Changes P (f.write fs directory) (f.write fs.recorded directory) :=
  (changes_update h f.content).bind fun _ => .pure P _

theorem changes_removeStale (h : P path) :
    Changes P (removeStale fs path) (removeStale fs.recorded path) := by
  refine (Changes.lift P (fs.isFile path)).bind fun present => ?_
  cases present with
  | true => exact (changes_ensure (.change h _) _).bind fun _ => .pure P _
  | false => exact .pure P _

end Operations
end NativeBindings
