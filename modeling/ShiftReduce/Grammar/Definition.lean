import ShiftReduce.Grammar.Basic

/-!
# Definitions

A grammar defined step by step: a script declares symbols, gives rules over the symbols declared
so far and picks a start symbol. A step may be refused, and a script may go on after that; what has
been defined before a refused step stays.
-/

namespace ShiftReduce

/-- What a script has defined so far. -/
structure Definition where
  declared : Declarations := {}
  rules : Array Rule := #[]
  start : Option SymbolId := none

/-- A script that defines a grammar. The definition outlives a refused step. -/
abbrev DefinitionM := ExceptT GrammarError (StateM Definition)

namespace DefinitionM

/-- Declare a symbol and get its number. -/
def declare (s : Symbol) : DefinitionM SymbolId := do
  let d ← get
  match d.declared.declare s with
  | .error e => throw e
  | .ok (i, declared) =>
    set { d with declared := declared }
    return i

def terminal (name : String) : DefinitionM SymbolId := declare ⟨.terminal, name⟩

def nonterminal (name : String) : DefinitionM SymbolId := declare ⟨.nonterminal, name⟩

def endOfInput (name : String) : DefinitionM SymbolId := declare ⟨.endOfInput, name⟩

/-- Give a rule and get its number. -/
def rule (name : String) (head : SymbolId) (body : List SymbolId) : DefinitionM RuleId := do
  let d ← get
  match addRule d.declared.symbols d.rules ⟨name, head, body.toArray⟩ with
  | .error e => throw e
  | .ok rules =>
    set { d with rules := rules }
    return rules.size

/-- Pick the start symbol, in place of an earlier choice. -/
def startSymbol (i : SymbolId) : DefinitionM Unit := do
  let d ← get
  match Grammar.startObjection? d.declared.symbols i with
  | some e => throw e
  | none => set { d with start := some i }

end DefinitionM

namespace Definition

/-- The first nonterminal to have been declared. -/
def firstNonterminal? (d : Definition) : Option SymbolId :=
  d.declared.symbols.findIdx? Symbol.isNonterminal

/-- The grammar that has been defined. Where no start symbol was picked, the first nonterminal is
one. -/
def finish (d : Definition) : Except GrammarError Grammar :=
  match d.start.or d.firstNonterminal? with
  | none => .error .emptyNonterminals
  | some start => do
    let v ← d.declared.finish
    Grammar.assemble v start d.rules.toList

end Definition

/-- The grammar that a script defines, if the script ends without an error. -/
def Grammar.define (script : DefinitionM Unit) : Except GrammarError Grammar :=
  match script.run.run {} with
  | (.error e, _) => .error e
  | (.ok (), d) => d.finish

/-! ## Scripts as data -/

/-- One step of a script. -/
inductive DefinitionStep where
  | declare (symbol : Symbol)
  | rule (name : String) (head : SymbolId) (body : List SymbolId)
  | start (symbol : SymbolId)
deriving DecidableEq, Repr

namespace DefinitionStep

/-- Take a step. The answer is the number it gave out, if any. -/
def run : DefinitionStep → DefinitionM (Option Nat)
  | .declare s => some <$> DefinitionM.declare s
  | .rule name head body => some <$> DefinitionM.rule name head body
  | .start i => (fun _ => none) <$> DefinitionM.startSymbol i

/-- Take steps up to the first that is refused, and keep what each answered. -/
def runAll : List DefinitionStep → Definition → List (Option Nat) × Except GrammarError Definition
  | [], d => ([], .ok d)
  | step :: rest, d =>
    match step.run.run d with
    | (.error e, _) => ([], .error e)
    | (.ok answer, d') =>
      let (answers, result) := runAll rest d'
      (answer :: answers, result)

/-- Take all steps, past those that are refused, and keep what each answered. -/
def runPastErrors :
    List DefinitionStep → Definition → List (Except GrammarError (Option Nat)) × Definition
  | [], d => ([], d)
  | step :: rest, d =>
    let (answer, d') := step.run.run d
    let (answers, last) := runPastErrors rest d'
    (answer :: answers, last)

end DefinitionStep

end ShiftReduce
