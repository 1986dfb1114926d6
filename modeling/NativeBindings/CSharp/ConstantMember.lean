import NativeBindings.Constant.Basic
import NativeBindings.CSharp.Literal
import NativeBindings.CSharp.Signature
import NativeBindings.DeclarationTree

/-!
# Constant members

Methods and properties that return a constant text.
-/

namespace NativeBindings
namespace EvaluatedConstant

/-- The type of the constant, `string` if it has not been checked. -/
def type (c : EvaluatedConstant) : ConstantType := c.constant.type.getD .string

/-- Modifiers, return type and name. -/
def head (c : EvaluatedConstant) : String :=
  let m := c.constant.target
  m.modifiersText ++ " " ++ c.type.typeName ++ " " ++ m.name

/-- A property that returns the text. -/
def propertyText (tool : Tool) (c : EvaluatedConstant) : List Fragment :=
  [.line (UnitText.generatedCode tool),
   .braced c.head
     [.line UnitText.methodImpl,
      .line ("get => " ++ c.type.expression c.value ++ ";")]]

/-- A method that returns the text. Its parameters are never used, which is no reason to warn. -/
def methodText (tool : Tool) (c : EvaluatedConstant) : List Fragment :=
  let m := c.constant.target
  let pragma (verb : String) : List Fragment :=
    if m.params.isEmpty then [] else [.directive ("#pragma warning " ++ verb ++ " IDE0060")]
  pragma "disable" ++
    [.line (UnitText.generatedCode tool),
     .line UnitText.methodImpl,
     .line (c.head ++ m.typeParamList ++ m.paramList ++ m.constraintClauses ++ " => " ++
       c.type.expression c.value ++ ";")] ++
    pragma "restore"

/-- The implementation of a constant member. -/
def implementation (tool : Tool) (c : EvaluatedConstant) : List Fragment :=
  if c.constant.isProperty then c.propertyText tool else c.methodText tool

/-- Constant members in a declaration tree. -/
def printer (tool : Tool) : TreePrinter EvaluatedConstant where
  namespaceHeader := NativeBindings.namespaceHeader
  typeHeader := EnclosingType.partialHeader
  member := implementation tool

/-- The unit with all constant members. -/
def unitText (tool : Tool) (tree : DeclarationTree EvaluatedConstant) : String :=
  UnitText.page (tree.fragments (printer tool))

end EvaluatedConstant
end NativeBindings
