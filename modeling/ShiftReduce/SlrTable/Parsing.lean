import ShiftReduce.Parser.Engine
import ShiftReduce.SlrTable.Basic

/-!
# Parsing with the table of a grammar

The table of a grammar as the parser sees it: rules and symbols are those of the grammar, and the
tokens of the input are its terminals, the end marker left out.
-/

namespace ShiftReduce

/-- The head and the body of a rule. -/
def Grammar.production? (g : Grammar) (rule : RuleId) : Option (SymbolId × List SymbolId) :=
  (g.rule? rule).map fun r => (r.head, r.body.toList)

namespace SlrTable

/-- The table as it drives the parser. -/
def parsing (t : SlrTable) : ParsingTable SymbolId RuleId where
  initial := 0
  endOfInput := t.grammar.endOfInput
  start := t.grammar.start
  isToken x := (t.grammar.symbol? x).any (·.kind = .terminal)
  action? := t.action?
  production? := t.grammar.production?

/-- Parse the items of a token source, in at most `fuel` moves. -/
def parse {E : Type} (t : SlrTable) (fuel : Nat) (items : List (Except E (Token SymbolId))) :
    Option (Except (ParseError SymbolId RuleId E) (Tree SymbolId RuleId)) :=
  t.parsing.parse fuel items

end SlrTable

end ShiftReduce
