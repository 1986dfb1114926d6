import NativeBindings.Generation.Preview
import NativeBindings.Report.Transcript
import NativeBindings.Text.Json

/-!
# Check reports

What a run would produce and what is wrong with its input, as text or as JSON.
-/

namespace NativeBindings

/-- The numbers of members with each marker. -/
structure MarkerCounts where
  symbols : Nat
  functions : Nat
  constants : Nat
  deriving DecidableEq

namespace MarkerCounts

def isSymbol : Marker → Bool
  | .symbol .. => true
  | .function .. | .constant .. => false

def isFunction : Marker → Bool
  | .function .. => true
  | .symbol .. | .constant .. => false

def isConstant : Marker → Bool
  | .constant .. => true
  | .symbol .. | .function .. => false

/-- The markers of some members, counted. -/
def of (members : List Member) : MarkerCounts :=
  let markers := members.filterMap (·.marker)
  ⟨markers.countP isSymbol, markers.countP isFunction, markers.countP isConstant⟩

end MarkerCounts

/-- The outcome of a check. -/
structure CheckReport where
  configPath : String
  errors : List Diagnostic
  warnings : List Diagnostic
  memberCount : Nat
  markers : MarkerCounts
  units : List String
  deriving DecidableEq

namespace CheckReport

/-- The report on a run. -/
def of (configPath : String) (g : Generator) : CheckReport :=
  let (errors, warnings) := g.preview.diagnostics.partition (·.isError)
  ⟨configPath, errors, warnings, g.members.length, .of g.members, g.preview.files.map (·.name)⟩

def isValid (r : CheckReport) : Bool := r.errors.isEmpty

/-- The report as text. -/
def transcript (r : CheckReport) : Transcript :=
  (Transcript.ofDiagnostics (r.errors ++ r.warnings)).print <|
    if !r.isValid then
      let errors := counted r.errors.length "error"
      [s!"✗ {r.configPath} has {errors}"]
    else
      let members := counted r.memberCount "member"
      let symbols := counted r.markers.symbols "symbol"
      let functions := counted r.markers.functions "function"
      let constants := counted r.markers.constants "constant"
      let units := counted r.units.length "unit"
      [s!"✓ {r.configPath} is valid", "", s!"  {members}: {symbols}, {functions}, {constants}",
        s!"  {units}:"] ++ r.units.map ("  -   " ++ ·)

end CheckReport

/-- A location as JSON. -/
def Location.json (l : Location) : Json :=
  .record [("file", .string l.file), ("line", .number l.line), ("column", .number l.column)]

/-- A diagnostic as JSON. -/
def Diagnostic.json (d : Diagnostic) : Json :=
  .record
    [("id", .string d.code), ("kind", .string d.problem.name),
     ("severity", .string d.severity.name), ("message", .string d.message),
     ("location", d.location.elim .null (·.json))]

/-- The report as JSON. -/
def CheckReport.json (r : CheckReport) : Json :=
  .record
    [("config_path", .string r.configPath), ("errors", .list (r.errors.map (·.json))),
     ("warnings", .list (r.warnings.map (·.json))), ("member_count", .number r.memberCount),
     ("markers", .record
       [("symbols", .number r.markers.symbols), ("functions", .number r.markers.functions),
        ("constants", .number r.markers.constants)]),
     ("units", .list (r.units.map .string))]

end NativeBindings
