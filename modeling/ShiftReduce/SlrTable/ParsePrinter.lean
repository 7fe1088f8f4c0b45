import ShiftReduce.SlrTable.Parsing
import ShiftReduce.Text.Quoted

/-!
# Printed parses

Trees and errors of a parse with the table of a grammar, with the names of symbols and rules.
-/

namespace ShiftReduce

/-- The blanks before a node: two for each level. -/
def indentation (depth : Nat) : String := String.ofList (List.replicate (2 * depth) ' ')

namespace Grammar

mutual
/-- A tree with one node to a line, indented by its depth: a leaf with its text, an inner node
with the name of its rule. -/
def renderTree (g : Grammar) (depth : Nat) : Tree SymbolId RuleId → String
  | .leaf t => indentation depth ++ g.nameOf t.symbol ++ " " ++ Text.quote t.text ++ "\n"
  | .node x rule ts =>
    indentation depth ++ g.nameOf x ++ " (" ++ ((g.rule? rule).elim "" Rule.name) ++ ")\n" ++
      renderTrees g (depth + 1) ts

def renderTrees (g : Grammar) (depth : Nat) : List (Tree SymbolId RuleId) → String
  | [] => ""
  | t :: ts => renderTree g depth t ++ renderTrees g depth ts
end

/-- What an unexpected symbol is called. -/
def describeUnexpected (g : Grammar) (x : SymbolId) (text : Option String) : String :=
  match g.symbol? x, text with
  | some ⟨.endOfInput, _⟩, none => "end of input"
  | some s, _ => quoteName s.name
  | none, _ => SymbolId.render x

end Grammar

namespace SlrTable

variable {E : Type}

/-- An error of a parse in the terms of the grammar. -/
def describeError (t : SlrTable) (failureText : E → String) :
    ParseError SymbolId RuleId E → String
  | .unexpected state x text =>
    "syntax error: unexpected " ++ t.grammar.describeUnexpected x text ++
      (text.elim "" fun s => " " ++ Text.quote s) ++ " in state " ++ toString state
  | e => e.message SymbolId.render RuleId.render failureText

end SlrTable

end ShiftReduce
