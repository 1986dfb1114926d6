import NativeBindings.Text.Letters

/-!
# Identifiers

The names that generated code may declare. A keyword is a name only behind an `@`.
-/

namespace NativeBindings

/-- What is wrong with a name. -/
inductive IdentifierFault where
  | empty
  | badStart
  | badCharacter
  | keyword
  deriving DecidableEq

/-- The text of a fault. -/
def IdentifierFault.message : IdentifierFault → String
  | empty => "name cannot be empty"
  | badStart => "name must start with a letter or underscore"
  | badCharacter => "name must contain only letters, numbers, and underscores"
  | keyword => "name is a C# keyword; prefix it with '@'"

namespace Identifier

/-- The reserved words; words that are reserved only in some places are names. -/
def keywords : List String :=
  ["abstract", "as", "base", "bool", "break", "byte", "case", "catch", "char", "checked", "class",
   "const", "continue", "decimal", "default", "delegate", "do", "double", "else", "enum", "event",
   "explicit", "extern", "false", "finally", "fixed", "float", "for", "foreach", "goto", "if",
   "implicit", "in", "int", "interface", "internal", "is", "lock", "long", "namespace", "new",
   "null", "object", "operator", "out", "override", "params", "private", "protected", "public",
   "readonly", "ref", "return", "sbyte", "sealed", "short", "sizeof", "stackalloc", "static",
   "string", "struct", "switch", "this", "throw", "true", "try", "typeof", "uint", "ulong",
   "unchecked", "unsafe", "ushort", "using", "virtual", "void", "volatile", "while"]

/-- A name can start with `c`. -/
def isStart (c : Char) : Bool := isLetter c || c == '_'

/-- A name can go on with `c`. -/
def isPart (c : Char) : Bool := isLetter c || isNumber c || c == '_'

/-- What is wrong with the letters of a name. -/
def spellingFault? : List Char → Option IdentifierFault
  | [] => some .empty
  | c :: cs =>
    if !isStart c then some .badStart
    else if !cs.all isPart then some .badCharacter
    else none

/-- What is wrong with a name, if anything. -/
def fault? : List Char → Option IdentifierFault
  | '@' :: name => spellingFault? name
  | name =>
    (spellingFault? name).or (if keywords.contains (.ofList name) then some .keyword else none)

/-- The text is a name. -/
def isValid (name : List Char) : Bool := (fault? name).isNone

end Identifier
end NativeBindings
