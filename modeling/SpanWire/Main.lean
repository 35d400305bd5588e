import SpanWire.Cli.Program

/-! The command line program. -/
namespace SpanWire.Cli

def SystemError.ofIO : IO.Error → SystemError
  | .noFileOrDirectory .. => .notFound
  | .inappropriateType _ 20 _ => .notDirectory
  | .inappropriateType .. => .isDirectory
  | .invalidArgument _ 36 _ => .nameTooLong
  | .permissionDenied .. => .permissionDenied
  | e => .other (toString e)

/-- The system that is there. -/
def System.real : System IO where
  environment name := IO.getEnv name
  stdin := do (← IO.getStdin).readBinToEnd
  readFile path := do
    match ← (IO.FS.Handle.mk path .read).toBaseIO with
    | .error e => return .error (.atOpen (.ofIO e))
    | .ok handle => return (← handle.readBinToEnd.toBaseIO).mapError (.atRead <| .ofIO ·)
  writeFile path content := return (← (IO.FS.writeBinFile path content).toBaseIO).mapError .ofIO
  print content := do
    let stdout ← IO.getStdout
    stdout.write content
    stdout.flush
  report text := IO.eprint text

end SpanWire.Cli

def main (arguments : List String) : IO UInt32 :=
  return (← SpanWire.Cli.execute .real .standard arguments).toUInt32
