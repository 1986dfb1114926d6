import NativeBindings.Command.Help
import NativeBindings.Manifest.Generator
import NativeBindings.Report.Check
import NativeBindings.Report.Generation

/-!
# Running commands

What a command line does to a file system, and what it prints.

## Main definitions

- `Outcome` — the printed texts and the exit code
- `Invocation.run` — carries out an invocation
- `runArguments` — carries out a command line
-/

namespace NativeBindings

/-- What is left of a command when it has ended. -/
structure Outcome where
  exitCode : Nat
  output : String := ""
  errors : String := ""
  deriving DecidableEq

namespace Outcome

/-- The outcome of a command that has printed a transcript. -/
def ofTranscript (t : Transcript) (succeeded : Bool) : Outcome :=
  ⟨if succeeded then 0 else 1, Transcript.textOf t.output, Transcript.textOf t.errors⟩

/-- The outcome of a command that has only printed a text. -/
def printed (lines : List String) : Outcome := ⟨0, Transcript.textOf lines, ""⟩

/-- The outcome of a command that could not be carried out. -/
def failed (exitCode : Nat) (message : String) : Outcome := ⟨exitCode, "", message ++ "\n"⟩

end Outcome

/-- The text of an error in a manifest, with its code and what can be done about it. -/
def ManifestError.report (e : ManifestError) : String :=
  e.fault.faultClass.code ++ ": " ++ e.fault.message ++ (e.fault.help?.elim "" ("\n  help: " ++ ·))

namespace Invocation

variable {m : Type → Type} [Monad m]

/-- Reads a manifest and goes on with the run that it asks for. -/
def withGenerator (fs : FileSystem m) (config : String) (k : Generator → m Outcome) : m Outcome := do
  match ← fs.read? config with
  | none => return .failed 1 s!"failed to read '{config}'"
  | some text =>
    match Generator.parse ⟨text.toList, config⟩ with
    | .error e => return .failed 1 e.report
    | .ok g => k g

/-- The outcome of a check. -/
def checkOutcome (config : String) (json : Bool) (g : Generator) : Outcome :=
  let report := CheckReport.of config g
  let transcript := if json then ⟨[report.json.pretty 0], []⟩ else report.transcript
  .ofTranscript transcript report.isValid

/-- The outcome of a run that has written its files. -/
def generateOutcome (directory : String) : Except StorageError Output → Outcome
  | .error e => .failed 1 e.message
  | .ok o => .ofTranscript (o.transcript directory) (!o.hasErrors)

/-- Carries out an invocation. -/
def run (fs : FileSystem m) : Invocation → m Outcome
  | generate config directory dryRun => withGenerator fs config fun g =>
    if dryRun then return .ofTranscript g.preview.transcript (!g.preview.hasErrors)
    else do return generateOutcome directory (← (g.generate fs directory).run)
  | check config json => withGenerator fs config fun g => return checkOutcome config json g
  | help none => return .printed Help.program
  | help (some command) => return .printed (Help.command command)
  | helpOnHelp => return .printed Help.onHelp
  | version => return .printed [Tool.default.name ++ " " ++ Tool.default.version.display]

end Invocation

/-- Carries out a command line; one that is not well formed is answered with the usage. -/
def runArguments {m : Type → Type} [Monad m] (fs : FileSystem m) (words : List String) : m Outcome :=
  match Invocation.parse? words with
  | none => return .failed 2 "Usage: natbind <COMMAND>"
  | some invocation => invocation.run fs

end NativeBindings
