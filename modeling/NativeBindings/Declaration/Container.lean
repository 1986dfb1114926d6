import NativeBindings.Declaration.Location
import NativeBindings.Symbol
import NativeBindings.Text.Segment

/-!
# Containers

The namespaces and types that enclose a member, the outermost first.
-/

namespace NativeBindings

/-- One segment of a namespace. -/
structure Namespace where
  id : Symbol
  name : String
  deriving DecidableEq

/-- The keyword with which a type is declared. -/
inductive TypeKeyword where
  | classType
  | structType
  | recordType
  | recordStruct
  | interfaceType
  | enumType
  | delegateType
  deriving DecidableEq

/-- The keyword of a further declaration of a type; enums and delegates can have none. -/
def TypeKeyword.text? : TypeKeyword → Option String
  | classType => some "class"
  | structType => some "struct"
  | recordType => some "record"
  | recordStruct => some "record struct"
  | interfaceType => some "interface"
  | enumType | delegateType => none

/-- A type that encloses members or other types. -/
structure EnclosingType where
  id : Symbol
  name : String
  keyword : TypeKeyword
  typeParams : List String
  /-- Declared in parts. -/
  isPartial : Bool
  location : Option Location
  deriving DecidableEq

namespace EnclosingType

/-- The name with its type parameters. -/
def header (t : EnclosingType) : String :=
  if t.typeParams.isEmpty then t.name else t.name ++ "<" ++ joined ", " t.typeParams ++ ">"

/-- A further declaration can add members to the type. -/
def isExtensible (t : EnclosingType) : Bool := t.isPartial && t.keyword.text?.isSome

end EnclosingType

/-- The namespaces and types around a member. -/
structure Container where
  namespaces : List Namespace := []
  types : List EnclosingType := []
  deriving DecidableEq

namespace Container

/-- The dotted namespace, empty for the global one. -/
def namespacePath (c : Container) : String := joined "." (c.namespaces.map (·.name))

/-- The dotted name of the type at the given depth, that of the namespace at depth zero. -/
def qualifiedName (c : Container) (depth : Nat) : String :=
  joined "." (c.namespaces.map (·.name) ++ (c.types.take depth).map (·.header))

/-- The dotted name of the innermost type. -/
def name (c : Container) : String := c.qualifiedName c.types.length

def innermost? (c : Container) : Option EnclosingType := c.types.getLast?

end Container
end NativeBindings
