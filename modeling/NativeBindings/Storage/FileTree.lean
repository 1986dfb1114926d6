import NativeBindings.Storage.FileSystem

/-!
# File trees

A file system as a value: what stands at the end of each path. The root is the working directory, and
the way back from it leads to itself.

## Main definitions

- `FileTree` — directories and files by the names that lead to them
- `FileTree.locate?` — the names that a path leads through, with the ways back carried out
- `FileTree.system` — the tree as a file system
-/

namespace NativeBindings

/-- What stands at the end of a path. -/
inductive FileNode where
  | directory
  | file (content : String)
  deriving DecidableEq

/-- Directories and files by the names that lead to them from the root. -/
structure FileTree where
  nodes : List (List String × FileNode) := []
  deriving DecidableEq

namespace FileTree

/-- The node at the end of some names. The root is a directory. -/
def get? (t : FileTree) : List String → Option FileNode
  | [] => some .directory
  | names => t.nodes.lookup names

/-- The tree with another node at the end of some names. -/
def put (t : FileTree) (names : List String) (node : FileNode) : FileTree :=
  ⟨(names, node) :: t.nodes.filter (·.1 != names)⟩

/-- The tree without the node at the end of some names. -/
def erase (t : FileTree) (names : List String) : FileTree := ⟨t.nodes.filter (·.1 != names)⟩

/-- The names that components lead through from a place. Every step starts in a directory. -/
def walk? (t : FileTree) : List String → List String → Option (List String)
  | place, [] => some place
  | place, c :: cs =>
    if t.get? place = some .directory then
      if c = ".." then walk? t place.dropLast cs else walk? t (place ++ [c]) cs
    else none

/-- The names that a path leads through. -/
def locate? (t : FileTree) (path : String) : Option (List String) :=
  if path.isEmpty then none else t.walk? [] (FilePath.components path)

/-- The content of the file at a path. -/
def read? (t : FileTree) (path : String) : Option String :=
  if FilePath.endsInDirectory path then none
  else
    match (t.locate? path).bind t.get? with
    | some (.file content) => some content
    | some .directory | none => none

/-- There is a file at a path. -/
def isFile (t : FileTree) (path : String) : Bool := (t.read? path).isSome

/-- Makes the directories that components lead through from a place. -/
def makeDirectories (t : FileTree) : List String → List String → Bool × FileTree
  | _, [] => (true, t)
  | place, c :: cs =>
    if c = ".." then t.makeDirectories place.dropLast cs
    else
      match t.get? (place ++ [c]) with
      | some .directory => t.makeDirectories (place ++ [c]) cs
      | some (.file _) => (false, t)
      | none => (t.put (place ++ [c]) .directory).makeDirectories (place ++ [c]) cs

/-- Makes the directory at a path and all directories that lead to it. -/
def makeDirectory (t : FileTree) (path : String) : Bool × FileTree :=
  let cs := FilePath.components path
  if cs.all FilePath.isName then t.makeDirectories [] cs else (false, t)

/-- Gives the file at a path a content. Its directory must be there. -/
def write (t : FileTree) (path content : String) : Bool × FileTree :=
  let names := if FilePath.endsInDirectory path then none else t.locate? path
  match names.filter (·.all FilePath.isName) with
  | none => (false, t)
  | some names =>
    if t.get? names = some .directory then (false, t) else (true, t.put names (.file content))

/-- Removes the file at a path. -/
def remove (t : FileTree) (path : String) : Bool × FileTree :=
  if t.isFile path then (true, (t.locate? path).elim t t.erase) else (false, t)

/-- The tree as a file system. -/
def system : FileSystem (StateM FileTree) where
  read? path := fun t => (t.read? path, t)
  isFile path := fun t => (t.isFile path, t)
  makeDirectory path := fun t => t.makeDirectory path
  write path content := fun t => t.write path content
  remove path := fun t => t.remove path

/-- The files below a directory with their paths, in the order of the paths. -/
def filesBelow (t : FileTree) (path : String) : List (String × String) :=
  match t.locate? path with
  | none => []
  | some place =>
    let files := t.nodes.filterMap fun (names, node) =>
      match node with
      | .directory => none
      | .file content =>
        if place.isPrefixOf names && place.length < names.length then
          some (FilePath.join path (joined "/" (names.drop place.length)), content)
        else none
    files.mergeSort fun a b => !(b.1 < a.1)

end FileTree
end NativeBindings
