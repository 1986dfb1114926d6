import NativeBindings.Declaration.Member
import NativeBindings.Fragment
import NativeBindings.Version

/-!
# Declarations in generated code

Headers of namespaces, types and members, and the attributes and directives around them.
-/

namespace NativeBindings

namespace UnitText

/-- The first line of a unit. -/
def autoGenerated : String := "// <auto-generated/>"

def nullableEnable : String := "#nullable enable"

def nullableRestore : String := "#nullable restore"

/-- The attribute that asks for inlining and optimisation. -/
def methodImpl : String :=
  "[global::System.Runtime.CompilerServices.MethodImpl(global::System.Runtime.CompilerServices.MethodImplOptions.AggressiveInlining | global::System.Runtime.CompilerServices.MethodImplOptions.AggressiveOptimization)]"

/-- The attribute that names the author of generated code. -/
def generatedCode (tool : Tool) : String :=
  "[global::System.CodeDom.Compiler.GeneratedCode(\"" ++ tool.name ++ "\", \"" ++
    tool.version.display ++ "\")]"

/-- A unit: its head, its fragments, a blank line and its end. -/
def page (fs : List Fragment) : String :=
  Fragment.render <|
    [.line autoGenerated, .directive nullableEnable, .blank] ++ fs ++
      [.blank, .directive nullableRestore]

end UnitText

/-- The header of a namespace. -/
def namespaceHeader (qualifiedName : String) : String := "namespace " ++ qualifiedName

/-- The header of a further declaration of a type. -/
def EnclosingType.partialHeader (t : EnclosingType) : String :=
  match t.keyword.text? with
  | some keyword => "partial " ++ keyword ++ " " ++ t.header
  | none => "partial " ++ t.header

/-- A parameter as it is declared. -/
def Param.declaration (p : Param) : String :=
  p.passing.keyword ++ p.type.name ++ " " ++ p.name ++ (p.defaultValue.map (" = " ++ ·)).getD ""

namespace Member

/-- The parameters in parentheses. -/
def paramList (m : Member) : String := "(" ++ joined ", " (m.params.map (·.declaration)) ++ ")"

/-- The constraints of the type parameters that have one. -/
def constraintClauses (m : Member) : String :=
  joined "" <| m.typeParams.filterMap fun t =>
    t.constraint.map fun c => " where " ++ t.name ++ " : " ++ c

/-- Modifiers, return type and name. -/
def head (m : Member) : String :=
  m.modifiersText ++ " " ++ m.returnPassing.keyword ++ m.returnType.name ++ " " ++ m.name

/-- The whole declaration of a method, without a body. -/
def methodSignature (m : Member) : String :=
  m.head ++ m.typeParamList ++ m.paramList ++ m.constraintClauses

end Member
end NativeBindings
