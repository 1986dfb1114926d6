import NativeBindings.Text.Segment

/-!
# File paths

Paths are texts with slashes between their components. They are printed as they were given, so
nothing in them is simplified.

## Main definitions

- `FilePath.join` — a path below another
- `FilePath.parent?` — the path of the directory that contains a file
- `FilePath.components` — what a path leads through
-/

namespace NativeBindings
namespace FilePath

/-- The path starts at the root. -/
def isAbsolute (path : String) : Bool := path.toList.head? == some '/'

/-- A path below a base; an absolute one takes the place of the base. -/
def join (base path : String) : String :=
  if isAbsolute path || base.isEmpty then path
  else if base.toList.getLast? == some '/' then base ++ path
  else base ++ "/" ++ path

/-- Leaves out slashes, and points between them, at the end of a path that is written backwards. A
single slash stays. -/
def trimBackwards : List Char → List Char
  | '/' :: c :: rest => trimBackwards (c :: rest)
  | '.' :: '/' :: rest => trimBackwards ('/' :: rest)
  | s => s

/-- The path of the directory that contains a file; the empty path is the working directory. -/
def parent? (path : String) : Option String :=
  let s := trimBackwards path.toList.reverse
  if s = [] ∨ s = ['/'] then none
  else some (.ofList (trimBackwards (s.dropWhile (· ≠ '/'))).reverse)

/-- What a path leads through. Two points lead back, one point and nothing stay. -/
def components (path : String) : List String :=
  ((segments '/' path.toList).map .ofList).filter fun c => c != "" && c != "."

/-- The path can only be that of a directory. -/
def endsInDirectory (path : String) : Bool :=
  let last := (segments '/' path.toList).getLast?
  last == some [] || last == some ['.'] || last == some ['.', '.']

/-- A file or a directory can have the name. -/
def isName (name : String) : Bool := !name.toList.contains '\x00' && name.utf8ByteSize ≤ 255

end FilePath
end NativeBindings
