import ShiftReduce.Assembly.Report
import ShiftReduce.Grammar.Printer
import ShiftReduce.SlrTable.Printer

/-!
# The command line

The assembler is given the path of a source file and may be asked to print the grammar of a line
and the parsing table first. Arguments that begin with a dash are options, save for a dash on its
own and for all that follows the option `--`, which ends the options.
-/

namespace ShiftReduce.Assembly

/-- What the arguments ask for. -/
structure Request where
  path? : Option String := none
  dumpGrammar : Bool := false
  dumpTable : Bool := false
deriving DecidableEq, Repr

namespace Request

/-- Take an argument as the path, of which there is one, and not empty. -/
def addPath (r : Request) (path : String) : Option Request :=
  if path.isEmpty ∨ r.path?.isSome then none else some { r with path? := some path }

/-- Whether an argument is to be taken as an option. -/
def isOption (argument : String) : Bool :=
  match argument.toList with
  | '-' :: _ :: _ => true
  | _ => false

/-- Take in arguments, of which an option may be given once. -/
def addArguments (r : Request) : List String → Option Request
  | [] => some r
  | argument :: rest =>
    if argument = "--" then rest.foldlM addPath r
    else if argument = "--dump-grammar" then
      if r.dumpGrammar then none else addArguments { r with dumpGrammar := true } rest
    else if argument = "--dump-table" then
      if r.dumpTable then none else addArguments { r with dumpTable := true } rest
    else if isOption argument then none
    else
      match r.addPath argument with
      | some r => addArguments r rest
      | none => none

/-- The request of the arguments and the path in it; none if they are not as they should be. -/
def ofArguments? (arguments : List String) : Option (Request × String) := do
  let r ← addArguments {} arguments
  let path ← r.path?
  return (r, path)

/-- What is printed before the report on the file. -/
def dumps (r : Request) : List String :=
  (if r.dumpGrammar then [lineGrammar.render ++ "\n"] else []) ++
    (if r.dumpTable then [lineTable.render ++ "\n"] else [])

/-- The whole report, given the answer to the opening of the file. -/
def report (r : Request) (path : String) (file : FileAnswer) : Report :=
  Report.andThen ⟨r.dumps, none⟩ fun _ => reportFile path file

example : (ofArguments? ["--", "--dump-table"]).map Prod.snd = some "--dump-table" := by
  decide +kernel
example : ofArguments? ["--dump-table", "a.s", "--dump-table"] = none := by decide +kernel
example : ofArguments? [""] = none := by decide +kernel

end Request

end ShiftReduce.Assembly
