import ShiftReduce.Assembly.Line
import ShiftReduce.Assembly.Source

/-!
# Reports

What the assembler prints about a source file: for each line of code its parse tree, a warning if
the operands are not those that the operation takes, and the instruction. The first line that is
refused ends the report.
-/

namespace ShiftReduce.Assembly

/-! ## Failures -/

/-- Why a report ends early. -/
inductive Failure where
  /-- The file cannot be opened. -/
  | closed (file reason : String)
  /-- The file can be opened and not be read. -/
  | unreadable (file reason : String)
  /-- A line cannot be parsed. -/
  | refused (line : SourceLine) (e : LineError)
  /-- The tree of a line is no instruction. -/
  | noInstruction (line : SourceLine) (e : InstructionError)
deriving DecidableEq, Repr

namespace Failure

/-- What the assembler was about. -/
def context : Failure → String
  | .closed file _ => "failed to open the source file " ++ quoteName file
  | .unreadable file _ => "failed to read " ++ quoteName file
  | .refused line _ => line.location ++ ": syntax error"
  | .noInstruction line _ => line.location ++ ": invalid instruction"

def cause : Failure → String
  | .closed _ reason => reason
  | .unreadable _ reason => reason
  | .refused _ e => e.message
  | .noInstruction _ e => e.message

def render (f : Failure) : String :=
  "Error: " ++ f.context ++ "\n\nCaused by:\n    " ++ f.cause ++ "\n"

end Failure

/-! ## Reports -/

/-- What has been printed, piece by piece, and what has gone wrong. -/
structure Report where
  printed : List String := []
  failure? : Option Failure := none
deriving DecidableEq, Repr

namespace Report

def output (r : Report) : String := String.join r.printed

def ofFailure (f : Failure) : Report := { failure? := some f }

/-- Go on with another report, unless something has gone wrong. -/
def andThen (r : Report) (rest : Unit → Report) : Report :=
  match r.failure? with
  | some f => ⟨r.printed, some f⟩
  | none =>
    let rest := rest ()
    ⟨r.printed ++ rest.printed, rest.failure?⟩

end Report

/-- The warning that an instruction calls for. -/
def Instruction.warnings (i : Instruction) (location : String) : List String :=
  if i.fits then []
  else ["[warning] " ++ location ++ ": " ++ quoteName i.operation.name ++ " expects " ++
    i.operation.shape.render ++ " operands, found " ++ i.shape.render ++ "\n"]

/-- The report on a line of code. -/
def SourceLine.report (l : SourceLine) : Report :=
  match parseLine l.code with
  | .error e => .ofFailure (.refused l e)
  | .ok t =>
    let tree := lineGrammar.renderTree 0 t
    match Instruction.ofTree t with
    | .error e => ⟨[tree], some (.noInstruction l e)⟩
    | .ok i => ⟨tree :: i.warnings l.location ++ [l.location ++ ": " ++ i.render ++ "\n"], none⟩

/-! ## Files -/

/-- What comes of the attempt to read a file. -/
inductive FileAnswer where
  | contents (bytes : List UInt8)
  /-- The file cannot be opened. -/
  | closed (reason : String)
  /-- The file can be opened and not be read. -/
  | unreadable (reason : String)

/-- The report on lines of a file. -/
def reportLines (file : String) : List (Except ReadError SourceLine) → Report
  | [] => {}
  | .error e :: _ => .ofFailure (.unreadable file e.message)
  | .ok l :: rest => l.report.andThen fun _ => reportLines file rest

/-- The report on a file. -/
def reportFile (file : String) : FileAnswer → Report
  | .contents bytes => reportLines file (codeLines file bytes)
  | .closed reason => .ofFailure (.closed file reason)
  | .unreadable reason => .ofFailure (.unreadable file reason)

end ShiftReduce.Assembly
