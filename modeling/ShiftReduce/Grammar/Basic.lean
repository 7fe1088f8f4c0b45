import ShiftReduce.Rule
import ShiftReduce.Vocabulary

/-!
# Grammars

A vocabulary, a start symbol and a list of rules. Rules are numbered: the given rules count from 1,
in their order, and number 0 is the accepting rule, which puts the end marker after the start
symbol. Every value of the type is well formed; `Grammar.assemble` is the check.
-/

namespace ShiftReduce

structure Grammar where
  vocabulary : Vocabulary
  start : SymbolId
  /-- The given rules; the rule at place `i` has the number `i + 1`. -/
  rules : Array Rule
  start_nonterminal : vocabulary.isNonterminal start = true
  rules_wellFormed : WellFormedRules vocabulary.symbols rules

namespace Grammar

def endOfInput (g : Grammar) : SymbolId := g.vocabulary.endOfInput

def symbol? (g : Grammar) (i : SymbolId) : Option Symbol := g.vocabulary.symbol? i

def nameOf (g : Grammar) (i : SymbolId) : String := g.vocabulary.nameOf i

def isNonterminal (g : Grammar) (i : SymbolId) : Bool := g.vocabulary.isNonterminal i

/-- Rule 0: the start symbol, then the end of the input. -/
def acceptRule (g : Grammar) : Rule where
  name := "$accept"
  head := g.endOfInput
  body := #[g.start, g.endOfInput]

/-- The rule with a number. -/
def rule? (g : Grammar) : RuleId → Option Rule
  | 0 => some g.acceptRule
  | i + 1 => g.rules[i]?

/-- The numbers of the given rules, in ascending order. -/
def ruleIds (g : Grammar) : List RuleId := (List.range g.rules.size).map (· + 1)

/-- The numbers of the given rules with a head, in ascending order. -/
def rulesOf (g : Grammar) (head : SymbolId) : List RuleId :=
  g.ruleIds.filter fun i => (g.rule? i).any (·.head = head)

/-- The number of the given rule with a name. -/
def ruleNamed? (g : Grammar) (name : String) : Option RuleId :=
  g.ruleIds.find? fun i => (g.rule? i).any (·.name = name)

/-- The symbol behind place `cursor` of a rule's body. -/
def symbolAt? (g : Grammar) (rule : RuleId) (cursor : Nat) : Option SymbolId :=
  (g.rule? rule).bind (·.body[cursor]?)

/-! ## Assembly -/

/-- What speaks against a start symbol. -/
def startObjection? (symbols : Array Symbol) (start : SymbolId) : Option GrammarError :=
  match symbols[start]? with
  | none => some (.unknownStartSymbol (.numbered start))
  | some s => if s.kind = .nonterminal then none else some (.startNotNonterminal s.name)

theorem startObjection?_eq_none_iff {v : Vocabulary} {start : SymbolId} :
    startObjection? v.symbols start = none ↔ v.isNonterminal start = true := by
  rw [Vocabulary.isNonterminal_iff, startObjection?, Vocabulary.symbol?]
  cases v.symbols[start]? with
  | none => simp
  | some s => simp

/-- The grammar of a vocabulary, a start symbol and rules, which are numbered in their order. -/
def assemble (v : Vocabulary) (start : SymbolId) (rules : List Rule) :
    Except GrammarError Grammar :=
  match hs : startObjection? v.symbols start with
  | some e => .error e
  | none =>
    match hr : addRules v.symbols #[] rules with
    | .error e => .error e
    | .ok rules =>
      .ok ⟨v, start, rules, startObjection?_eq_none_iff.1 hs,
        (WellFormedRules.empty v.symbols).of_addRules hr⟩

end Grammar

end ShiftReduce
