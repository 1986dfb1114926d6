/-!
# Generated units

The units that a run can produce, and their file names.
-/

namespace NativeBindings

/-- The language of generated code. -/
def targetLanguage : String := "csharp"

/-- The ending of the names of generated files. -/
def fileExtension : String := "cs"

/-- The units that a run can produce. -/
inductive OutputUnit where
  /-- The types that import markers are written with. -/
  | importMarkers
  /-- The types that constant markers are written with. -/
  | constantMarkers
  | imports
  | constants
  deriving DecidableEq

namespace OutputUnit

/-- All units, in the order in which they are produced. -/
def all : List OutputUnit := [importMarkers, constantMarkers, imports, constants]

/-- The name of a unit. -/
def title : OutputUnit → String
  | importMarkers => "NativeImportAttributes"
  | constantMarkers => "FormattedConstantAttribute"
  | imports => "NativeImports"
  | constants => "FormattedConstants"

/-- The file name of a unit; the namespace of the marker types stands in front. -/
def fileName (markerNamespace : String) (u : OutputUnit) : String :=
  markerNamespace ++ "." ++ u.title ++ ".g." ++ fileExtension

end OutputUnit

/-- A file that is to be written. -/
structure SourceFile where
  /-- The path below the output directory. -/
  name : String
  content : String
  deriving DecidableEq

end NativeBindings
