import NativeBindings.CSharp.Identifier
import NativeBindings.Text.Position

/-!
# Errors in manifests

Why a manifest is refused, and what is said about it.

## Main definitions

- `ManifestFault` — everything that a manifest can be refused for
- `ManifestError` — a fault with its place
-/

namespace NativeBindings

/-- What a name is the name of. -/
inductive NameRole where
  | type
  | typeParameter
  | container
  | member
  | parameter
  deriving DecidableEq

def NameRole.display : NameRole → String
  | type => "type"
  | typeParameter => "type parameter"
  | container => "container"
  | member => "member"
  | parameter => "parameter"

/-- Where a type is used in a member. -/
inductive TypeRole where
  | result
  | parameter (name : String)
  deriving DecidableEq

def TypeRole.display : TypeRole → String
  | result => "return type"
  | parameter name => s!"parameter '{name}'"

/-- Everything that a manifest can be refused for. -/
inductive ManifestFault where
  /-- The document is no manifest at all. -/
  | unreadable
  | unknownType (type : String) (role : TypeRole) (member : String)
  | multipleMarkers (member : String)
  | invalidName (name : String) (role : NameRole) (fault : IdentifierFault)
  | unknownAccess (name : String)
  | unknownCulture (name : String)
  | parameterizedProperty (member : String)
  | inaccessibleProperty (member : String)
  | duplicateMember (member : String)
  deriving DecidableEq

/-- The classes of faults. -/
inductive ManifestFaultClass where
  | unreadable
  | unknownType
  | multipleMarkers
  | invalidName
  | unknownValue
  | invalidMember
  deriving DecidableEq

/-- The stable code of a class. -/
def ManifestFaultClass.code : ManifestFaultClass → String
  | unreadable => "natbind::parse_error"
  | unknownType => "natbind::unknown_type"
  | multipleMarkers => "natbind::multiple_markers"
  | invalidName => "natbind::invalid_identifier"
  | unknownValue => "natbind::unknown_value"
  | invalidMember => "natbind::validation_error"

namespace ManifestFault

/-- The class of a fault. -/
def faultClass : ManifestFault → ManifestFaultClass
  | unreadable => .unreadable
  | unknownType .. => .unknownType
  | multipleMarkers _ => .multipleMarkers
  | invalidName .. => .invalidName
  | unknownAccess _ | unknownCulture _ => .unknownValue
  | parameterizedProperty _ | inaccessibleProperty _ | duplicateMember _ => .invalidMember

/-- The text of a fault. -/
def message : ManifestFault → String
  | unreadable => "failed to parse natbind.toml"
  | unknownType type role member => s!"unknown type '{type}' in {role.display} of '{member}'"
  | multipleMarkers member => s!"member '{member}' carries more than one marker"
  | invalidName name role _ => s!"invalid {role.display} name '{name}'"
  | unknownAccess name => s!"unknown symbol kind '{name}'"
  | unknownCulture name => s!"unknown culture '{name}'"
  | parameterizedProperty member => s!"property '{member}' cannot declare parameters"
  | inaccessibleProperty member => s!"property '{member}' declares neither get nor set"
  | duplicateMember member => s!"duplicate member '{member}'"

/-- What can be done about a fault. -/
def help? : ManifestFault → Option String
  | unknownType .. =>
    some "use a C# keyword, 'ReadOnlySpan<T>', a member type parameter, or declare it under [types.\"Namespace.Name\"]"
  | multipleMarkers _ =>
    some "keep only one of [members.symbol], [members.function] or [members.constant]"
  | invalidName _ _ fault =>
    some s!"{fault.message}. Use only letters, numbers, and underscores, starting with a letter or underscore."
  | unknownAccess _ => some "expected one of: auto, getter, setter, reference"
  | unknownCulture _ => some "expected one of: default, invariant"
  | unreadable | parameterizedProperty _ | inaccessibleProperty _ | duplicateMember _ => none

/-- What is written at the place of a fault. -/
def label (f : ManifestFault) : String :=
  match f.faultClass with
  | .unreadable => "parse error here"
  | .unknownType => "unknown type"
  | .multipleMarkers => "declared here"
  | .invalidName => "invalid identifier"
  | .unknownValue => "unknown value"
  | .invalidMember => f.message

end ManifestFault

/-- A fault with its place, if it has one. -/
structure ManifestError where
  fault : ManifestFault
  place : Option Span
  deriving DecidableEq

end NativeBindings
