import ShiftReduce.Assembly.Lexeme
import ShiftReduce.Grammar.Named
import ShiftReduce.SlrTable.Parsing

/-!
# The grammar of a line

A line holds one instruction, and an instruction is written in one of four forms, each with a rule
of its own. The grammar is well formed and has a parsing table, so `lineGrammar` and `lineTable`
are values rather than results.
-/

namespace ShiftReduce.Assembly

/-- A way to write an instruction. -/
structure Form where
  /-- The name of the rule for the form. -/
  name : String
  shape : Shape
  terminals : List Terminal
deriving DecidableEq, Repr

namespace Form

def all : List Form := [
  ⟨"NO_OPERANDS", .bare, [.operation]⟩,
  ⟨"REGISTER", .register, [.operation, .register]⟩,
  ⟨"REGISTER_IMMEDIATE", .registerImmediate, [.operation, .register, .comma, .integer]⟩,
  ⟨"THREE_REGISTERS", .threeRegisters,
    [.operation, .register, .comma, .register, .comma, .register]⟩]

/-- The rule for the form. -/
def rule (f : Form) : NamedRule := ⟨f.name, "INSTRUCTION", f.terminals.map Terminal.name⟩

end Form

/-! ## The grammar -/

def lineSymbols : List Symbol :=
  Terminal.all.map (fun t => ⟨.terminal, t.name⟩) ++
    [⟨.nonterminal, "START"⟩, ⟨.nonterminal, "INSTRUCTION"⟩, ⟨.endOfInput, "EOF"⟩]

def lineRules : List NamedRule := ⟨"LINE", "START", ["INSTRUCTION"]⟩ :: Form.all.map Form.rule

def buildLineGrammar : Except GrammarError Grammar := do
  let v ← Vocabulary.ofSymbols lineSymbols
  let rules ← v.buildRules lineRules
  Grammar.ofNamed v "START" rules.toList

theorem isOk_buildLineGrammar : buildLineGrammar.isOk = true := by decide +kernel

/-- The grammar of a line. -/
def lineGrammar : Grammar :=
  match h : buildLineGrammar with
  | .ok g => g
  | .error _ => absurd isOk_buildLineGrammar (by simp [h, Except.isOk, Except.toBool])

/-- The number of a terminal in the grammar of a line. -/
def Terminal.symbol : Terminal → SymbolId
  | .operation => 0
  | .register => 1
  | .integer => 2
  | .identifier => 3
  | .comma => 4

/-- The terminals have the numbers under which the grammar declares them. -/
theorem lookup?_name (t : Terminal) :
    lineGrammar.vocabulary.lookup? t.name = some t.symbol := by
  cases t <;> decide +kernel

/-- The shape of the instructions that a rule describes. -/
def shapeOf? (rule : RuleId) : Option Shape := do
  let r ← lineGrammar.rule? rule
  let form ← Form.all.find? (·.name = r.name)
  return form.shape

/-! ## The table -/

theorem isOk_compile_lineGrammar : (SlrTable.compile lineGrammar).isOk = true := by
  decide +kernel

/-- The parsing table for a line. -/
def lineTable : SlrTable :=
  match h : SlrTable.compile lineGrammar with
  | .ok t => t
  | .error _ => absurd isOk_compile_lineGrammar (by simp [h, Except.isOk, Except.toBool])

example : (List.range 7).map shapeOf? =
    [none, none, some .bare, some .register, some .registerImmediate, some .threeRegisters,
      none] := by
  decide +kernel
example : lineTable.size = 10 := by decide +kernel

end ShiftReduce.Assembly
