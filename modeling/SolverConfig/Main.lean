import SolverConfig.CommandLine

/-! The program: arguments in, reports out. -/

namespace SolverConfig

def FileError.ofSystem : IO.Error → FileError
  | .noFileOrDirectory _ code description
  | .permissionDenied _ code description
  | .inappropriateType _ code description
  | .invalidArgument _ code description
  | .resourceExhausted _ code description
  | .otherError code description => .system description code.toNat
  | e => .system (toString e) 0

def readDisk (path : String) : IO (Except FileError ByteArray) := do
  try return .ok (← IO.FS.readBinFile path)
  catch e => return .error (.ofSystem e)

end SolverConfig

def main (arguments : List String) : IO UInt32 := do
  let content ← match SolverConfig.Command.ofArguments? arguments with
    | some (.parse r) => SolverConfig.readDisk r.file
    | _ => pure (.ok .empty)
  let r := SolverConfig.report (fun _ => content) arguments
  IO.print r.output
  IO.eprint r.errors
  return r.code
