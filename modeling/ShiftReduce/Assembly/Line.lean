import ShiftReduce.Assembly.Instruction
import ShiftReduce.SlrTable.ParsePrinter

/-!
# Lines of code

From the text of a line to its parse tree and on to its instruction. A line is refused for a
character that begins no piece, for a piece that does not stand where it may, or for operands that
are out of range.
-/

namespace ShiftReduce.Assembly

inductive LineError where
  | lex (e : LexError)
  /-- What is found, by terminal and text, is not among what the state expects; nothing is found
  at the end of the line. -/
  | unexpected (state : StateId) (found : Option (String × String)) (expected : List String)
  /-- The parser fails without a fault of the line. -/
  | failed (reason : String)
  | instruction (e : InstructionError)
deriving DecidableEq, Repr

namespace LineError

/-- The end of the line, as messages name it. -/
def endOfLine : String := "end of line"

def describeFound : Option (String × String) → String
  | some (terminal, text) => terminal ++ " " ++ quoteName text
  | none => endOfLine

def listExpected (expected : List String) : String := ", ".intercalate expected

def message : LineError → String
  | .lex e => e.message
  | .unexpected _ found expected =>
    "unexpected " ++ describeFound found ++ " (expected one of: " ++ listExpected expected ++ ")"
  | .failed reason => "parser failure: " ++ reason
  | .instruction e => e.message

end LineError

/-! ## Parsing -/

/-- What the parser reads of a line. -/
def lineTokens (line : String) : List (Except LexError (Token SymbolId)) :=
  (lex line).map fun item => item.map fun l => ⟨l.terminal.symbol, l.text⟩

/-- The symbols for which a state has an action, in the order of the table. -/
def expectedIn (state : StateId) : List String :=
  ((lineTable.row? state).elim [] Row.symbols).map fun x =>
    if x = lineGrammar.endOfInput then LineError.endOfLine else lineGrammar.nameOf x

def LineError.ofParseError : ParseError SymbolId RuleId LexError → LineError
  | .source e => .lex e
  | .unexpected state x text =>
    .unexpected state (text.map (lineGrammar.nameOf x, ·)) (expectedIn state)
  | e => .failed (lineTable.describeError LexError.message e)

/-- How many moves the parser may make on a line of `n` tokens. It takes each token once; then it
reduces the instruction and takes it, reduces the line and takes it, and accepts. -/
def maxMoves (n : Nat) : Nat := n + 5

/-- The parse tree of a line. -/
def parseLine (line : String) : Except LineError (Tree SymbolId RuleId) :=
  let tokens := lineTokens line
  match lineTable.parse (maxMoves tokens.length) tokens with
  | some (.ok t) => .ok t
  | some (.error e) => .error (.ofParseError e)
  | none => .error (.failed "too many moves")

/-- The instruction of a line. -/
def assembleLine (line : String) : Except LineError Instruction :=
  match parseLine line with
  | .error e => .error e
  | .ok t =>
    match Instruction.ofTree t with
    | .error e => .error (.instruction e)
    | .ok i => .ok i

example : (assembleLine "add r1, r02").toOption = none := by decide +kernel
example : (assembleLine "PSH r2 ; push").toOption.map Instruction.render =
    some "PSH r2  ; op=31" := by
  decide +kernel

end ShiftReduce.Assembly
