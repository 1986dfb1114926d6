import NativeBindings.Declaration.Container
import NativeBindings.Declaration.Marker
import NativeBindings.Declaration.TypeUse

/-!
# Members

Methods and properties as they are declared, and the compilation that they belong to.

## Main definitions

- `Member` — a declared method or property, perhaps with a marker
- `Member.displayName`, `Member.signature` — how messages and comments name a member
- `Compilation` — what is known about the compilation
-/

namespace NativeBindings

/-- A modifier of a declaration. -/
inductive Modifier where
  | publicAccess
  | privateAccess
  | protectedAccess
  | internalAccess
  | fileLocal
  | replacing
  | staticMember
  | abstractMember
  | virtualMember
  | overriding
  | sealedMember
  | external
  | unsafeCode
  | readOnly
  | requiredMember
  | partialMember
  deriving DecidableEq

/-- The keyword of a modifier. -/
def Modifier.keyword : Modifier → String
  | publicAccess => "public"
  | privateAccess => "private"
  | protectedAccess => "protected"
  | internalAccess => "internal"
  | fileLocal => "file"
  | replacing => "new"
  | staticMember => "static"
  | abstractMember => "abstract"
  | virtualMember => "virtual"
  | overriding => "override"
  | sealedMember => "sealed"
  | external => "extern"
  | unsafeCode => "unsafe"
  | readOnly => "readonly"
  | requiredMember => "required"
  | partialMember => "partial"

/-- A parameter of a method. -/
structure Param where
  name : String
  type : TypeUse
  passing : ParamPassing := .byValue
  /-- The default value as it is written. -/
  defaultValue : Option String := none
  deriving DecidableEq

/-- A type parameter of a method, with the body of its constraint. -/
structure TypeParam where
  name : String
  constraint : Option String
  deriving DecidableEq

/-- What a member is. -/
inductive MemberForm where
  | method
  | property (hasGet hasSet : Bool)
  deriving DecidableEq

/-- A declared member. -/
structure Member where
  id : Symbol
  name : String
  form : MemberForm
  modifiers : List Modifier
  /-- The declaration itself has a body. -/
  hasBody : Bool
  params : List Param
  typeParams : List TypeParam
  /-- The type of a result or of a property. -/
  returnType : TypeUse
  returnPassing : ReturnPassing
  container : Container
  location : Option Location
  marker : Option Marker
  deriving DecidableEq

namespace Member

def has (m : Member) (modifier : Modifier) : Bool := m.modifiers.contains modifier
def isStatic (m : Member) : Bool := m.has .staticMember
def isPartial (m : Member) : Bool := m.has .partialMember
def isAbstract (m : Member) : Bool := m.has .abstractMember

def isMethod (m : Member) : Bool := m.form == .method
def isProperty (m : Member) : Bool := !m.isMethod

/-- The modifiers in the order of the declaration. -/
def modifiersText (m : Member) : String := joined " " (m.modifiers.map (·.keyword))

/-- The names of the type parameters in angle brackets, nothing if there are none. -/
def typeParamList (m : Member) : String :=
  if m.typeParams.isEmpty then "" else "<" ++ joined ", " (m.typeParams.map (·.name)) ++ ">"

/-- The qualified name, for a method with the short names of its parameter types. -/
def displayName (m : Member) : String :=
  let name := m.container.name ++ "." ++ m.name ++ m.typeParamList
  match m.form with
  | .method =>
    name ++ "(" ++ joined ", " (m.params.map fun p => p.passing.keyword ++ p.type.shortName) ++ ")"
  | .property .. => name

/-- The display name behind the short name of the return type. -/
def signature (m : Member) : String :=
  m.returnPassing.keyword ++ m.returnType.shortName ++ " " ++ m.displayName

end Member

/-- What is known about the compilation that the members belong to. -/
structure Compilation where
  assembly : String := "Natbind.Generated"
  /-- Unsafe code may be used. -/
  allowsUnsafeCode : Bool := true
  /-- The metadata names of the available runtime types. -/
  knownTypes : List String := ["System.ReadOnlySpan`1"]
  deriving DecidableEq

namespace Compilation

/-- The metadata name of read-only spans. -/
def readOnlySpan : String := "System.ReadOnlySpan`1"

def knowsType (c : Compilation) (metadataName : String) : Bool :=
  c.knownTypes.contains metadataName

end Compilation
end NativeBindings
