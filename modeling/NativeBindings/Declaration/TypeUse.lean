import NativeBindings.Text.Segment

/-!
# Types as declarations use them

The name that a declaration writes for a type, with what the generators have to know about it, and
the ways in which a value is passed by reference.
-/

namespace NativeBindings

/-- What the generators have to know about a type. -/
inductive TypeShape where
  | void
  /-- A built-in number or truth value. -/
  | primitive
  | string
  | char
  | byte
  | pointer
  /-- A declared value type of fixed layout. -/
  | unmanaged
  /-- A type parameter; `fixed` if it is constrained to types of fixed layout. -/
  | typeParameter (fixed : Bool)
  /-- A read-only span of elements with the given name, shape and nullability. -/
  | span (name : String) (shape : TypeShape) (nullable : Bool)
  | managed
  deriving DecidableEq

/-- A type as a declaration uses it. -/
structure TypeUse where
  /-- The name in generated code, such as `uint` or `global::Demo.Point`. -/
  name : String
  shape : TypeShape
  /-- Written with a question mark. -/
  nullable : Bool := false
  deriving DecidableEq

namespace TypeShape

/-- The shape of a read-only span of the given elements. -/
def spanOf (element : TypeUse) : TypeShape := .span element.name element.shape element.nullable

/-- Values of this shape have a fixed layout in memory. -/
def isUnmanaged : TypeShape → Bool
  | primitive | char | byte | pointer | unmanaged => true
  | typeParameter fixed => fixed
  | void | string | span .. | managed => false

end TypeShape

namespace TypeUse

/-- The type of members that return nothing. -/
def void : TypeUse := { name := "void", shape := .void }

/-- The nullable form of a type; its name has one question mark. -/
def asNullable (t : TypeUse) : TypeUse :=
  if t.nullable then t else { t with name := t.name ++ "?", nullable := true }

/-- The pointer type to a type. -/
def pointer (t : TypeUse) : TypeUse := { name := t.name ++ "*", shape := .pointer }

def isVoid (t : TypeUse) : Bool := t.shape == .void

/-- Values of the type have a fixed layout in memory. -/
def isUnmanaged (t : TypeUse) : Bool := t.shape.isUnmanaged

/-- The name without its `global::` qualifiers. -/
def shortName (t : TypeUse) : String := .ofList (without "global::".toList t.name.toList)

end TypeUse

/-- How a parameter is passed. -/
inductive ParamPassing where
  | byValue
  | byRef
  | byOut
  | byIn
  | byRefReadonly
  deriving DecidableEq

namespace ParamPassing

/-- The modifier in a parameter list, with a blank behind it. -/
def keyword : ParamPassing → String
  | byValue => ""
  | byRef => "ref "
  | byOut => "out "
  | byIn => "in "
  | byRefReadonly => "ref readonly "

/-- The modifier of an argument, with a blank behind it. -/
def argumentKeyword : ParamPassing → String
  | byValue => ""
  | byRef => "ref "
  | byOut => "out "
  | byIn | byRefReadonly => "in "

/-- The address of the argument can be pinned and read. -/
def isPinnable : ParamPassing → Bool
  | byRef | byIn | byRefReadonly => true
  | byValue | byOut => false

end ParamPassing

/-- How a result is returned. -/
inductive ReturnPassing where
  | byValue
  | byRef
  | byRefReadonly
  deriving DecidableEq

namespace ReturnPassing

/-- The modifier of a return type, with a blank behind it. -/
def keyword : ReturnPassing → String
  | byValue => ""
  | byRef => "ref "
  | byRefReadonly => "ref readonly "

def isByRef : ReturnPassing → Bool
  | byValue => false
  | byRef | byRefReadonly => true

end ReturnPassing
end NativeBindings
