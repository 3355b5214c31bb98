import LinearSystem.Command.Run
/-!
The command line: reads the arguments and the source, and writes what the run leaves behind.
-/
namespace LinearSystem.Command

/-- All bytes of the standard input. -/
def readStandardInput : IO (Except ReadError String) := do
  let stdin ← IO.getStdin
  return decodeSource (← stdin.readBinToEnd)

/-- The text of a file. -/
def readSourceFile (path : String) : IO (Except ReadError String) := do
  match ← (IO.FS.readBinFile path).toBaseIO with
  | .ok bytes => return decodeSource bytes
  | .error (.noFileOrDirectory ..) => return .error .notFound
  | .error error => return .error (.other (toString error))

/-- The source that the arguments name. -/
def Input.read : Input → IO (Except ReadError String)
  | .standard => readStandardInput
  | .file path => readSourceFile path
  | .inline source => return .ok source

/-- Writes an outcome and returns its status. -/
def Outcome.deliver (outcome : Outcome) : IO UInt32 := do
  IO.print outcome.output
  IO.eprint outcome.errors
  return outcome.exitCode.toUInt32

end LinearSystem.Command

open LinearSystem.Command in
/-- Runs the command. -/
def main (arguments : List String) : IO UInt32 := do
  match Request.ofArguments arguments with
  | .error error =>
    IO.eprintln ("error: " ++ error.message)
    return 2
  | .ok .version => version.deliver
  | .ok (.run task input) => (task.runOn (← input.read)).deliver
