import NativeBindings.Generation.Preview
import NativeBindings.Manifest.Declarations

/-!
# Runs over a manifest
-/

namespace NativeBindings

/-- The run that a manifest with its declarations asks for. -/
def Generator.ofManifest (m : Manifest) (d : Declarations) : Generator where
  compilation := d.compilation
  members := d.members
  markerNamespace := m.generator.markerNamespace.getD defaultNamespace
  tool := m.generator.toolOrDefault

/-- The run that the text of a manifest asks for. -/
def Generator.parse (source : SourceText) : Except ManifestError Generator := do
  let manifest ← Manifest.parse source
  .ok (.ofManifest manifest (← manifest.declarations))

end NativeBindings
