import NativeBindings.Binding.Validation
import NativeBindings.DeclarationTree
import NativeBindings.Generation.Phase

/-!
# The imports pass

Collects the bindings of all members, checks that unsafe code may be used, puts the valid bindings
into a declaration tree with a slot each, and has the tree printed.
-/

namespace NativeBindings

/-- The state of an imports pass. -/
structure ImportsPass where
  /-- Bindings that have not been looked at yet. -/
  pending : List Binding := []
  tree : DeclarationTree Binding := .empty .imports
  slots : SlotTable := {}
  diagnostics : List Diagnostic := []
  isAborted : Bool := false
  output : Option String := none

namespace ImportsPass

/-- The message for a compilation without unsafe code. -/
def unsafeNotAllowed : String :=
  "The compilation does not allow for usage of unsafe regions/blocks. This is needed in order for the generated source code to work. Allow it by adding \"<AllowUnsafeBlocks>true</AllowUnsafeBlocks>\" to the project file, or by compiling with the \"-unsafe\" option."

/-- The bindings of all members. -/
def extract (members : List Member) (s : ImportsPass) : ImportsPass :=
  { s with pending := members.filterMap Binding.ofMember? }

/-- Aborts if there are bindings and unsafe code is not allowed. -/
def gate (c : Compilation) (s : ImportsPass) : ImportsPass :=
  if !s.pending.isEmpty && !c.allowsUnsafeCode then
    { s with
      isAborted := true
      diagnostics := s.diagnostics ++
        [{ pass := .imports, problem := .unsafeNotAllowed, message := unsafeNotAllowed }] }
  else s

/-- What accepting a binding changes: the slots and the diagnostics. -/
structure Effects where
  slots : SlotTable
  diagnostics : List Diagnostic

/-- Adds a diagnostic. -/
def Effects.report (d : Diagnostic) (e : Effects) : Effects :=
  { e with diagnostics := e.diagnostics ++ [d] }

/-- A valid binding with its slot; an invalid one is reported. -/
def accept (rule : AccessRule) (b : Binding) (e : Effects) : Option Binding × Effects :=
  match b.validate rule with
  | .ok kind =>
    let accepted := { b with kind }
    let (slot, slots) := e.slots.register accepted.request
    (some { accepted with slot := some slot }, { e with slots })
  | .error error => (none, e.report (error.diagnostic b.location))

/-- Puts one binding into the tree. -/
def add (rule : AccessRule) (s : ImportsPass) (b : Binding) : ImportsPass :=
  let (_, tree, effects) :=
    s.tree.insert b.target.container b.target.id Effects.report (accept rule b)
      ⟨s.slots, s.diagnostics⟩
  { s with tree, slots := effects.slots, diagnostics := effects.diagnostics }

/-- Puts the pending bindings into the tree. -/
def build (rule : AccessRule) (s : ImportsPass) : ImportsPass :=
  let s := s.pending.foldl (add rule) { s with pending := [] }
  { s with tree := s.tree.prune }

/-- Prints the tree unless it is empty. -/
def print (printer : DeclarationTree Binding → SlotTable → String) (s : ImportsPass) :
    ImportsPass :=
  if s.tree.isEmpty then s else { s with output := some (printer s.tree s.slots) }

/-- The phases of the pass. -/
def phases (c : Compilation) (members : List Member) (rule : AccessRule)
    (printer : DeclarationTree Binding → SlotTable → String) : List (Phase ImportsPass) :=
  [{ name := "extract-bindings"
     description := "Collect binding descriptors from marked methods"
     run := extract members },
   { name := "unsafe-gate"
     description := "Require unsafe code to be allowed"
     run := gate c },
   { name := "build-imports"
     description := "Validate bindings, build the symbol tree and group slots"
     run := build rule },
   { name := "render-imports"
     description := "Render library slots, module initializers and accessors as C#"
     run := print printer }]

/-- The state after the pass. -/
def run (c : Compilation) (members : List Member) (rule : AccessRule)
    (printer : DeclarationTree Binding → SlotTable → String) : ImportsPass :=
  Phase.runAll (·.isAborted) (phases c members rule printer) {}

end ImportsPass
end NativeBindings
