import NativeBindings.Declaration.Member

/-!
# Constants

A constant implements a method or a property by a formatted text.
-/

namespace NativeBindings

/-- The types that a constant can have. -/
inductive ConstantType where
  | string
  | nullableString
  | charSpan
  | byteSpan
  deriving DecidableEq

/-- A member that is to return a formatted text. -/
structure Constant where
  template : Option String
  args : List FormatArgument
  culture : Culture
  target : Member
  isProperty : Bool
  /-- Known once the declaration of the member has been checked. -/
  type : Option ConstantType
  location : Option Location
  deriving DecidableEq

/-- A constant with its text. -/
structure EvaluatedConstant where
  constant : Constant
  value : String
  deriving DecidableEq

/-- The constant that the marker of a member asks for. -/
def Constant.ofMember? (m : Member) : Option Constant :=
  match m.marker with
  | some (.constant template args culture) =>
    some
      { template
        args
        culture := .ofRaw culture
        target := m
        isProperty := m.isProperty
        type := none
        location := m.location }
  | some (.symbol ..) | some (.function ..) | none => none

end NativeBindings
