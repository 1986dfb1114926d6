import NativeBindings.Diagnostic

/-!
# Transcripts

What a command prints: lines on the standard output, and diagnostics on the error output.
-/

namespace NativeBindings

/-- The lines of both outputs. A line can hold line ends of its own. -/
structure Transcript where
  output : List String := []
  errors : List String := []
  deriving DecidableEq

namespace Transcript

/-- The text of lines. -/
def textOf (lines : List String) : String := .join (lines.map (· ++ "\n"))

/-- Diagnostics on the error output, and an empty line on the standard output if there are any. -/
def ofDiagnostics (ds : List Diagnostic) : Transcript :=
  ⟨if ds.isEmpty then [] else [""], ds.map (·.report)⟩

/-- Adds lines to the standard output. -/
def print (t : Transcript) (lines : List String) : Transcript :=
  { t with output := t.output ++ lines }

end Transcript

/-- A count with its noun. -/
def counted (n : Nat) (noun : String) : String :=
  if n = 1 then s!"{n} {noun}" else s!"{n} {noun}s"

end NativeBindings
