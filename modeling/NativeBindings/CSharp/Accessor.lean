import NativeBindings.Binding.Basic
import NativeBindings.CSharp.Signature
import NativeBindings.DeclarationTree

/-!
# Accessors

The bodies of bound methods. An accessor reads or writes through the slot of its symbol, or calls
the function in it.

## Main definitions

- `Binding.body` — the statements of an accessor for a slot
- `Binding.printer` — accessors in a declaration tree
-/

namespace NativeBindings

namespace Slot

/-- The class of a library. -/
def libraryClass (library : Nat) : String := s!"_Lib{library}"

/-- The field of a slot. -/
def field (s : Slot) : String := s!"_Sym{s.symbol}"

/-- The qualified field of a slot. -/
def path (s : Slot) : String := "global::" ++ libraryClass s.library ++ "." ++ s.field

end Slot

/-- A calling convention in a function pointer type. -/
def NamedType.conventionName (t : NamedType) : String :=
  let name := t.simpleName
  .ofList ((dropStart? "CallConv".toList name.toList).getD name.toList)

namespace Access

/-- The statements that access a symbol in `slot`. -/
def body (m : Member) (slot : String) : Access → List Fragment
  | getter =>
    let pointer := m.returnType.pointer.name
    if m.returnPassing.isByRef then
      [.line ("return ref **unchecked((" ++ pointer ++ "*)" ++ slot ++ ");")]
    else [.line ("return *unchecked((" ++ pointer ++ ")" ++ slot ++ ");")]
  | reference =>
    [.line ("return ref *unchecked((" ++ m.returnType.pointer.name ++ ")" ++ slot ++ ");")]
  | setter =>
    match m.params.head? with
    | none => []
    | some p =>
      let pointer := p.type.pointer.name
      if p.passing.isPinnable then
        [.braced ("fixed(" ++ pointer ++ " p_" ++ p.name ++ " = &" ++ p.name ++ ")")
          [.line ("*unchecked((" ++ pointer ++ "*)" ++ slot ++ ") = p_" ++ p.name ++ ";")]]
      else [.line ("*unchecked((" ++ pointer ++ ")" ++ slot ++ ") = " ++ p.name ++ ";")]
  | auto | unknown _ => []

end Access

namespace Binding

/-- The function pointer type of a method. -/
def functionPointer (m : Member) (conventions : List NamedType) : String :=
  let convention :=
    if conventions.isEmpty then "unmanaged"
    else "unmanaged[" ++ joined ", " (conventions.map (·.conventionName)) ++ "]"
  let types := m.params.map (fun p => p.passing.keyword ++ p.type.name) ++
    [m.returnPassing.keyword ++ m.returnType.name]
  "delegate* " ++ convention ++ "<" ++ joined ", " types ++ ">"

/-- The statement that calls the function in `slot`. -/
def functionCall (m : Member) (conventions : List NamedType) (slot : String) : Fragment :=
  let result :=
    if m.returnType.isVoid then ""
    else if m.returnPassing.isByRef then "return ref "
    else "return "
  let args := m.params.map fun p => p.passing.argumentKeyword ++ p.name
  .line (result ++ "unchecked((" ++ functionPointer m conventions ++ ")" ++ slot ++ ")(" ++
    joined ", " args ++ ");")

/-- The statements of the accessor for a slot. -/
def body (b : Binding) (slot : String) : List Fragment :=
  match b.kind with
  | .symbol access => access.body b.target slot
  | .function conventions => [functionCall b.target conventions slot]

/-- The implementation of a bound method; without a slot its body is empty. -/
def implementation (tool : Tool) (b : Binding) : List Fragment :=
  [.directive "#pragma warning disable CS8500",
   .line (UnitText.generatedCode tool),
   .line UnitText.methodImpl,
   .braced b.target.methodSignature
     [.braced "unsafe" ((b.slot.map fun s => b.body s.path).getD [])],
   .directive "#pragma warning restore CS8500"]

/-- Accessors in a declaration tree. -/
def printer (tool : Tool) : TreePrinter Binding where
  namespaceHeader := NativeBindings.namespaceHeader
  typeHeader := EnclosingType.partialHeader
  member := implementation tool

end Binding
end NativeBindings
