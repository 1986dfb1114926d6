import NativeBindings.Command.Arguments

/-!
# Help

The texts that explain the command line.
-/

namespace NativeBindings

/-- What a command does. -/
def CommandName.about : CommandName → String
  | generate => "Generate the C# units described by natbind.toml"
  | check => "Run the generators without writing and report diagnostics"

namespace Help

/-- The explanation of the option that asks for help, behind a name of the given width. -/
def helpLine (width : Nat) : String := "  -h, --help" ++ .ofList (List.replicate width ' ') ++ "Print help"

/-- The explanation of the option that names the manifest. -/
def configLine : String :=
  "  -c, --config <CONFIG>  Path to natbind.toml (defaults to ./natbind.toml) [default: natbind.toml]"

/-- The help text of the program. -/
def program : List String :=
  ["Generate C# native import bindings from natbind.toml",
   "",
   "Usage: natbind <COMMAND>",
   "",
   "Commands:",
   "  generate  " ++ CommandName.generate.about,
   "  check     " ++ CommandName.check.about,
   "  help      Print this message or the help of the given subcommand(s)",
   "",
   "Options:",
   helpLine 5,
   "  -V, --version  Print version"]

/-- The help text of a command. -/
def command : CommandName → List String
  | .generate =>
    [CommandName.generate.about,
     "",
     "Usage: natbind generate [OPTIONS]",
     "",
     "Options:",
     configLine,
     "  -o, --output <OUTPUT>  Output directory (defaults to current directory) [default: .]",
     "      --dry-run          Print the generated units without writing to disk",
     helpLine 13]
  | .check =>
    [CommandName.check.about,
     "",
     "Usage: natbind check [OPTIONS]",
     "",
     "Options:",
     configLine,
     "      --json             Print the report as JSON",
     helpLine 13]

/-- The help text of the help command. -/
def onHelp : List String :=
  ["Print this message or the help of the given subcommand(s)",
   "",
   "Usage: natbind help [COMMAND]...",
   "",
   "Arguments:",
   "  [COMMAND]...  Print help for the subcommand(s)"]

end Help
end NativeBindings
