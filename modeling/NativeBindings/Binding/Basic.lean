import NativeBindings.Declaration.Member
import NativeBindings.SlotTable

/-!
# Bindings

A binding implements a method by a native symbol or function.
-/

namespace NativeBindings

/-- What a method is bound to. -/
inductive BindingKind where
  | symbol (access : Access)
  | function (conventions : List NamedType)
  deriving DecidableEq

/-- A method that is to be bound to a native symbol or function. -/
structure Binding where
  library : NamedType
  condition : Option NamedType
  symbolName : String
  /-- Assigned when the binding is accepted. -/
  slot : Option Slot
  target : Member
  kind : BindingKind
  location : Option Location
  deriving DecidableEq

namespace Binding

/-- The binding that a source and a kind ask for; there is none without a library. -/
def ofSource? (m : Member) (s : ImportSource) (kind : BindingKind) : Option Binding :=
  s.library.map fun library =>
    { library
      condition := s.condition
      symbolName := s.name.getD m.name
      slot := none
      target := m
      kind
      location := m.location }

/-- The binding that the marker of a method asks for. -/
def ofMember? (m : Member) : Option Binding :=
  if m.isMethod then
    match m.marker with
    | some (.symbol source access) => ofSource? m source (.symbol (.ofRaw access))
    | some (.function source conventions) => ofSource? m source (.function conventions)
    | some (.constant ..) | none => none
  else none

/-- What the binding imports. -/
def request (b : Binding) : ImportRequest :=
  { library := b.library
    condition := b.condition
    symbolName := b.symbolName
    importer := ⟨b.target.id, b.target.signature⟩ }

end Binding
end NativeBindings
