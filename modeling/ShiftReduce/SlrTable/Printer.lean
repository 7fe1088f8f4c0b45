import ShiftReduce.Grammar.Printer
import ShiftReduce.SlrTable.Basic

/-!
# Printed tables

A table as its states, one action to a line, with the names of symbols and the text of rules.
-/

namespace ShiftReduce

/-- An action in a printed table. -/
def Action.describe (g : Grammar) : Action RuleId → String
  | .shift next => "shift(" ++ StateId.render next ++ ")"
  | .reduce rule => "reduce(" ++ (g.renderRuleId? rule).getD "" ++ ")"
  | .accept => "accept"

/-- The table as text, with an empty line between two states. -/
def SlrTable.render (t : SlrTable) : String :=
  String.intercalate "\n" (t.rows.toList.mapIdx fun i row =>
    "#### State " ++ StateId.render i ++ "\n" ++
      String.join (row.entries.toList.map fun (x, action) =>
        "- " ++ t.grammar.nameOf x ++ " => " ++ action.describe t.grammar ++ "\n"))

end ShiftReduce
