/-!
# Locations

Where a declaration stands in a source file.
-/

namespace NativeBindings

/-- A place in a file; lines and columns count from one. -/
structure Location where
  file : String
  line : Nat
  column : Nat
  deriving DecidableEq

/-- The written form `file:line:column`. -/
def Location.display (l : Location) : String := s!"{l.file}:{l.line}:{l.column}"

end NativeBindings
