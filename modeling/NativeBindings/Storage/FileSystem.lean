import NativeBindings.Storage.FilePath

/-!
# File systems

What the generator asks of a file system, and how a file is written that may be there already.

## Main definitions

- `FileSystem` — the operations of a file system
- `FileSystem.update` — writes a file unless it has the content already
-/

namespace NativeBindings

/-- The operations of a file system, with what they do to the world in `m`. -/
structure FileSystem (m : Type → Type) where
  /-- The content of a file, if it can be read. -/
  read? : String → m (Option String)
  isFile : String → m Bool
  /-- Makes a directory and all directories that lead to it; tells whether it is there. -/
  makeDirectory : String → m Bool
  /-- Gives a file a content; tells whether it has it. -/
  write : String → String → m Bool
  /-- Removes a file; tells whether it is gone. -/
  remove : String → m Bool

/-- Why output could not be stored. -/
inductive StorageError where
  | create (path : String)
  | write (path : String)
  | remove (path : String)
  deriving DecidableEq

/-- The text of an error. -/
def StorageError.message : StorageError → String
  | create path => s!"failed to create '{path}'"
  | write path => s!"failed to write '{path}'"
  | remove path => s!"failed to remove '{path}'"

/-- What became of a file that was to be written. -/
inductive Update where
  | written
  | unchanged
  deriving DecidableEq

namespace FileSystem

variable {m : Type → Type} [Monad m]

/-- The operation must succeed. -/
def ensure (action : m Bool) (error : StorageError) : ExceptT StorageError m Unit := do
  if ← action then return () else throw error

/-- Writes a file, in a directory that is made if it is missing. A file that has the content already
is left as it is. -/
def update (fs : FileSystem m) (path content : String) : ExceptT StorageError m Update := do
  if (← fs.read? path) = some content then return .unchanged
  match FilePath.parent? path with
  | some parent => ensure (fs.makeDirectory parent) (.create parent)
  | none => pure ()
  ensure (fs.write path content) (.write path)
  return .written

end FileSystem
end NativeBindings
