import NativeBindings.CSharp.ConstantMember
import NativeBindings.CSharp.Loader
import NativeBindings.CSharp.MarkerUnit
import NativeBindings.Generation.ConstantsPass
import NativeBindings.Generation.ImportsPass
import NativeBindings.Generation.Unit

/-!
# Previews

What a run produces: both marker units, and the units of the passes that accept something.

## Main definitions

- `Generator` — members, compilation and options of a run
- `Generator.preview` — the files and diagnostics of a run
-/

namespace NativeBindings

/-- The namespace of the marker types if none is chosen. -/
def defaultNamespace : String := "Natbind.SourceGeneration"

/-- The input of a run. -/
structure Generator where
  compilation : Compilation
  members : List Member
  markerNamespace : String := defaultNamespace
  tool : Tool := .default

/-- The output of a run. -/
structure Preview where
  files : List SourceFile
  diagnostics : List Diagnostic
  deriving DecidableEq

namespace Preview

def hasErrors (p : Preview) : Bool := p.diagnostics.any (·.isError)

end Preview

namespace Generator

/-- The imports pass. -/
def importsPass (g : Generator) (rule : AccessRule := NamedType.isReachable) : ImportsPass :=
  ImportsPass.run g.compilation g.members rule (Loader.unitText ⟨g.markerNamespace, g.tool⟩)

/-- The constants pass. -/
def constantsPass (g : Generator) : ConstantsPass :=
  ConstantsPass.run g.compilation g.members (EvaluatedConstant.unitText g.tool)

/-- The file names of all units. -/
def unitNames (g : Generator) : List String := OutputUnit.all.map (·.fileName g.markerNamespace)

/-- The content of a unit, if the run produces it. -/
def content? (g : Generator) : OutputUnit → Option String
  | .importMarkers => some (MarkerUnit.imports g.markerNamespace)
  | .constantMarkers => some (MarkerUnit.constants g.markerNamespace)
  | .imports => g.importsPass.output
  | .constants => g.constantsPass.output

/-- The files and diagnostics of a run. -/
def preview (g : Generator) : Preview where
  files := OutputUnit.all.filterMap fun u =>
    (g.content? u).map (SourceFile.mk (u.fileName g.markerNamespace))
  diagnostics := g.importsPass.diagnostics ++ g.constantsPass.diagnostics

end Generator
end NativeBindings
