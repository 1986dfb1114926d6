import NativeBindings.Generation.Output
import NativeBindings.Report.Transcript

/-!
# Reports on runs

What a run has done to the output directory, or what it would write there.
-/

namespace NativeBindings

/-- A heading over lines, behind an empty line; nothing if there are no lines. -/
def headed (heading : String) (mark : String) (lines : List String) : List String :=
  if lines.isEmpty then [] else ["", heading ++ ":"] ++ lines.map fun l => "  " ++ mark ++ " " ++ l

/-- The report on a run that has written its files below a directory. -/
def Output.transcript (o : Output) (directory : String) : Transcript :=
  (Transcript.ofDiagnostics o.diagnostics).print <|
    ["Generated: " ++ directory] ++ headed "Written" "+" o.written ++
      headed "Removed" "-" o.removed ++ headed "Unchanged" "-" o.unchanged

/-- A line that sets a text off. -/
def divider (label : String) : String := "── " ++ label ++ " ──"

/-- The report on a run that has written nothing. -/
def Preview.transcript (p : Preview) : Transcript :=
  (Transcript.ofDiagnostics p.diagnostics).print <|
    p.files.flatMap (fun f => [divider f.name, f.content]) ++
      [divider "Summary", s!"{p.files.length} files would be generated"]

end NativeBindings
