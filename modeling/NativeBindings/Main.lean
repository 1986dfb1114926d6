import NativeBindings.Command.Run

/-!
# The program

Runs the command line over the files of the machine.
-/

namespace NativeBindings

/-- The answer of an action that can fail, as a truth value. -/
def succeeds (action : IO Unit) : IO Bool := do
  try
    action
    return true
  catch _ => return false

/-- The files of the machine. -/
def machineFiles : FileSystem IO where
  read? path := do
    try
      return some (← IO.FS.readFile path)
    catch _ => return none
  isFile path := succeeds (discard (IO.FS.readBinFile path))
  makeDirectory path := succeeds (IO.FS.createDirAll path)
  write path content := succeeds (IO.FS.writeFile path content)
  remove path := succeeds (IO.FS.removeFile path)

end NativeBindings

def main (args : List String) : IO UInt32 := do
  let outcome ← NativeBindings.runArguments NativeBindings.machineFiles args
  IO.print outcome.output
  IO.eprint outcome.errors
  return .ofNat outcome.exitCode
