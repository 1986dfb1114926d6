import NativeBindings.Constant.Validation
import NativeBindings.DeclarationTree
import NativeBindings.Generation.Phase

/-!
# The constants pass

Collects the constants of all members, checks that read-only spans are available, puts the constants
that have a value into a declaration tree, and has the tree printed.
-/

namespace NativeBindings

/-- The state of a constants pass. -/
structure ConstantsPass where
  /-- Constants that have not been looked at yet. -/
  pending : List Constant := []
  tree : DeclarationTree EvaluatedConstant := .empty .constants
  diagnostics : List Diagnostic := []
  isAborted : Bool := false
  output : Option String := none

namespace ConstantsPass

/-- The message for a compilation without read-only spans. -/
def missingSpan : String := "The required type 'System.ReadOnlySpan<T>' could not be found"

/-- The constants of all members. -/
def extract (members : List Member) (s : ConstantsPass) : ConstantsPass :=
  { s with pending := members.filterMap Constant.ofMember? }

/-- Aborts if there are constants and read-only spans are not known. -/
def gate (c : Compilation) (s : ConstantsPass) : ConstantsPass :=
  if !s.pending.isEmpty && !c.knowsType Compilation.readOnlySpan then
    { s with
      isAborted := true
      diagnostics := s.diagnostics ++
        [{ pass := .constants, problem := .missingRequiredType, message := missingSpan }] }
  else s

/-- Adds a diagnostic to a list. -/
def report (d : Diagnostic) (ds : List Diagnostic) : List Diagnostic := ds ++ [d]

/-- Puts one constant into the tree; one without a value is reported, one that is known is left
out. -/
def add (s : ConstantsPass) (c : Constant) : ConstantsPass :=
  if s.tree.isKnown c.target.id then s
  else
    match c.evaluate with
    | .error error =>
      { s with
        tree := s.tree.refuse c.target.id
        diagnostics := report (error.diagnostic c.location) s.diagnostics }
    | .ok value =>
      let (_, tree, diagnostics) :=
        s.tree.insert c.target.container c.target.id report (fun ds => (some value, ds))
          s.diagnostics
      { s with tree, diagnostics }

/-- Puts the pending constants into the tree. -/
def build (s : ConstantsPass) : ConstantsPass :=
  let s := s.pending.foldl add { s with pending := [] }
  { s with tree := s.tree.prune }

/-- Prints the tree unless it is empty. -/
def print (printer : DeclarationTree EvaluatedConstant → String) (s : ConstantsPass) :
    ConstantsPass :=
  if s.tree.isEmpty then s else { s with output := some (printer s.tree) }

/-- The phases of the pass. -/
def phases (c : Compilation) (members : List Member)
    (printer : DeclarationTree EvaluatedConstant → String) : List (Phase ConstantsPass) :=
  [{ name := "extract-constants"
     description := "Collect constant descriptors from marked members"
     run := extract members },
   { name := "span-gate"
     description := "Require System.ReadOnlySpan<T> to be available"
     run := gate c },
   { name := "build-constants"
     description := "Validate and evaluate constants, build the symbol tree"
     run := build },
   { name := "render-constants"
     description := "Render formatted constant members as C#"
     run := print printer }]

/-- The state after the pass. -/
def run (c : Compilation) (members : List Member)
    (printer : DeclarationTree EvaluatedConstant → String) : ConstantsPass :=
  Phase.runAll (·.isAborted) (phases c members printer) {}

end ConstantsPass
end NativeBindings
