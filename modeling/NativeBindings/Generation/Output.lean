import NativeBindings.Generation.Preview
import NativeBindings.Storage.FileSystem

/-!
# Output of a run

The files of a run are written below an output directory. Files of units that the run does not
produce are removed, so that nothing of an earlier run stays behind.

## Main definitions

- `Generator.generate` — writes the files of a run
-/

namespace NativeBindings

/-- The paths of the files that a run has dealt with. -/
structure Output where
  written : List String := []
  unchanged : List String := []
  removed : List String := []
  diagnostics : List Diagnostic
  deriving DecidableEq

namespace Output

def hasErrors (o : Output) : Bool := o.diagnostics.any (·.isError)

end Output

/-- The path of a file below a directory. -/
def SourceFile.path (f : SourceFile) (directory : String) : String :=
  FilePath.join directory f.name

variable {m : Type → Type} [Monad m]

/-- Writes a file below a directory. -/
def SourceFile.write (fs : FileSystem m) (directory : String) (f : SourceFile) :
    ExceptT StorageError m (String × Update) := do
  return (f.path directory, ← fs.update (f.path directory) f.content)

/-- Removes a file, if there is one; the paths of removed files are collected. -/
def removeStale (fs : FileSystem m) (path : String) : ExceptT StorageError m (Option String) := do
  if ← fs.isFile path then
    FileSystem.ensure (fs.remove path) (.remove path)
    return some path
  else return none

namespace Generator

/-- The paths of units that a run does not produce. -/
def stalePaths (g : Generator) (directory : String) : List String :=
  (g.unitNames.filter fun name => !(g.preview.files.map (·.name)).contains name).map
    (FilePath.join directory)

/-- Writes the files of a run below a directory and removes those of units that the run does not
produce. -/
def generate (fs : FileSystem m) (g : Generator) (directory : String) :
    ExceptT StorageError m Output := do
  let updates ← g.preview.files.mapM (·.write fs directory)
  let removed ← (g.stalePaths directory).mapM (removeStale fs)
  return {
    written := (updates.filter (·.2 = .written)).map (·.1)
    unchanged := (updates.filter (·.2 = .unchanged)).map (·.1)
    removed := removed.filterMap id
    diagnostics := g.preview.diagnostics }

end Generator
end NativeBindings
