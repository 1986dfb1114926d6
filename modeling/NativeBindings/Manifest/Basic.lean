import NativeBindings.Manifest.TypeTable
import NativeBindings.Text.Position
import NativeBindings.Version

/-!
# Manifests

What a manifest says, before anything in it has been checked.
-/

namespace NativeBindings

/-- A text with the name of the file that holds it. -/
structure SourceText where
  text : List Char
  file : String
  deriving DecidableEq

namespace SourceText

/-- The location of a position. -/
def locate (s : SourceText) (p : Position) : Location := ⟨s.file, p.line, p.column⟩

/-- The location of a byte offset. -/
def location? (s : SourceText) (offset : Nat) : Option Location :=
  (Position.ofOffset? s.text offset).map s.locate

end SourceText

/-- A value that is written as its name or as a number. -/
inductive NameOrNumber where
  | number (n : Int)
  | name (s : String)
  deriving DecidableEq

namespace NameOrNumber

def display : NameOrNumber → String
  | number n => s!"{n}"
  | name s => s

/-- The raw value of a way of access. -/
def access? : NameOrNumber → Option Int
  | number n => some n
  | name s => (Access.ofName? s).map (·.raw)

/-- The raw value of a culture. -/
def culture? : NameOrNumber → Option Int
  | number n => some n
  | name s => Culture.rawOfName? s

end NameOrNumber

/-- The attribution of generated code and the namespace of the marker types. -/
structure GeneratorEntry where
  markerNamespace : Option String := none
  tool : Option String := none
  version : Option Version := none
  deriving DecidableEq

/-- The tool that generated code names. -/
def GeneratorEntry.toolOrDefault (g : GeneratorEntry) : Tool :=
  ⟨g.tool.getD Tool.default.name, g.version.getD Tool.default.version⟩

/-- Facts about the compilation. -/
structure CompilationEntry where
  assembly : Option String := none
  allowsUnsafeCode : Bool := true
  knownTypes : Option (List String) := none
  deriving DecidableEq

/-- The compilation, with the usual facts where none are written. -/
def CompilationEntry.compilation (c : CompilationEntry) : Compilation :=
  let usual : Compilation := {}
  ⟨c.assembly.getD usual.assembly, c.allowsUnsafeCode, c.knownTypes.getD usual.knownTypes⟩

/-- A parameter; its type is a text. -/
structure ParamEntry where
  name : String
  type : String
  passing : ParamPassing
  defaultValue : Option String
  deriving DecidableEq

/-- A library and a condition by their keys, and the imported name. -/
structure SourceEntry where
  library : Option String
  condition : Option String
  name : Option String
  deriving DecidableEq

structure SymbolEntry where
  source : SourceEntry
  access : NameOrNumber
  deriving DecidableEq

structure FunctionEntry where
  source : SourceEntry
  conventions : List String
  deriving DecidableEq

structure ConstantEntry where
  template : Option String
  args : List FormatArgument
  culture : NameOrNumber
  deriving DecidableEq

/-- What a member is said to be. -/
inductive MemberKind where
  | method
  | property
  deriving DecidableEq

/-- A member. -/
structure MemberEntry where
  /-- The key of the type that contains the member. -/
  container : String
  name : String
  kind : MemberKind
  modifiers : List Modifier
  returns : String
  returnPassing : ReturnPassing
  params : List ParamEntry
  typeParams : List TypeParam
  hasBody : Bool
  hasGet : Bool
  hasSet : Bool
  symbol : Option SymbolEntry
  function : Option FunctionEntry
  constant : Option ConstantEntry
  deriving DecidableEq

namespace MemberEntry

/-- The dotted name of the member. -/
def display (m : MemberEntry) : String :=
  .ofList (nameOfKey m.container.toList) ++ "." ++ m.name

/-- How many markers the member has. -/
def markerCount (m : MemberEntry) : Nat :=
  m.symbol.toList.length + m.function.toList.length + m.constant.toList.length

/-- The parameter types as they are written, without blanks around them. -/
def paramTypes (m : MemberEntry) : List String :=
  m.params.map fun p => .ofList (trimBlank p.type.toList)

/-- The dotted name with the parameter types. -/
def signature (m : MemberEntry) : String := m.display ++ "(" ++ joined "," m.paramTypes ++ ")"

end MemberEntry

/-- A manifest. -/
structure Manifest where
  source : SourceText
  generator : GeneratorEntry
  compilation : CompilationEntry
  types : TypeTable
  /-- The members with the places of their entries. -/
  members : List (Span × MemberEntry)

namespace Manifest

/-- What the type names in a member can stand for. -/
def scope (m : Manifest) (member : MemberEntry) : TypeScope := ⟨m.types, member.typeParams⟩

/-- The header under which a type is declared, as it is usually written. -/
def typeHeader (key : String) : String := "[types.\"" ++ key ++ "\"]"

/-- The location of the header of a type. -/
def typeLocation? (m : Manifest) (key : String) : Option Location :=
  (occurrence? (typeHeader key).toList m.source.text).map fun n =>
    m.source.locate (.behind (m.source.text.take n))

end Manifest
end NativeBindings
