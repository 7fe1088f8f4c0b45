import ShiftReduce.Assembly.CommandLine

/-!
# The assembler

Reads the file that the arguments name and prints the report on it.
-/

namespace ShiftReduce

open Assembly

/-- The reason for which the system refuses to open or read a file. -/
def systemReason : IO.Error → String
  | .alreadyExists _ code details => withCode code details
  | .otherError code details => withCode code details
  | .resourceBusy code details => withCode code details
  | .resourceVanished code details => withCode code details
  | .unsupportedOperation code details => withCode code details
  | .hardwareFault code details => withCode code details
  | .unsatisfiedConstraints code details => withCode code details
  | .illegalOperation code details => withCode code details
  | .protocolError code details => withCode code details
  | .timeExpired code details => withCode code details
  | .interrupted _ code details => withCode code details
  | .noFileOrDirectory _ code details => withCode code details
  | .invalidArgument _ code details => withCode code details
  | .permissionDenied _ code details => withCode code details
  | .resourceExhausted _ code details => withCode code details
  | .inappropriateType _ code details => withCode code details
  | .noSuchThing _ code details => withCode code details
  | .unexpectedEof => "failed to fill whole buffer"
  | .userError message => message
where
  withCode (code : UInt32) (details : String) : String :=
    details ++ " (os error " ++ toString code.toNat ++ ")"

/-- Open and read a file. -/
def readSource (path : String) : IO FileAnswer := do
  match ← (IO.FS.Handle.mk path .read).toBaseIO with
  | .error e => return .closed (systemReason e)
  | .ok handle =>
    match ← handle.readBinToEnd.toBaseIO with
    | .error e => return .unreadable (systemReason e)
    | .ok bytes => return .contents bytes.data.toList

/-- Answer a command line, and give the exit code. -/
def answer (arguments : List String) : IO UInt32 := do
  match Request.ofArguments? arguments with
  | none =>
    IO.eprintln "Usage: asm [--dump-grammar] [--dump-table] SOURCE"
    return 2
  | some (request, path) =>
    let report := request.report path (← readSource path)
    IO.print report.output
    match report.failure? with
    | none => return 0
    | some failure =>
      IO.eprint failure.render
      return 1

end ShiftReduce

def main (arguments : List String) : IO UInt32 := ShiftReduce.answer arguments
