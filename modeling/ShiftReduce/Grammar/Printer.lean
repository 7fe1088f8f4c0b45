import ShiftReduce.Grammar.Basic

/-!
# Printed grammars

A grammar as text: its terminals on one line, the end marker, the nonterminals one to a line with
the start symbol marked, and the given rules.
-/

namespace ShiftReduce

namespace Grammar

/-- A rule as `NAME: HEAD := X Y Z`. -/
def renderRule (g : Grammar) (r : Rule) : String :=
  r.name ++ ": " ++ g.nameOf r.head ++ " :=" ++
    String.join (r.body.toList.map fun x => " " ++ g.nameOf x)

/-- The rule with a number, as text. -/
def renderRuleId? (g : Grammar) (i : RuleId) : Option String := (g.rule? i).map g.renderRule

/-- The names of the terminals, the end marker left out. -/
def terminalNames (g : Grammar) : List String :=
  g.vocabulary.symbols.toList.filter (·.kind = .terminal) |>.map Symbol.name

def renderNonterminal (g : Grammar) (i : SymbolId) : String :=
  g.nameOf i ++ (if i = g.start then " (start)" else "") ++ "\n"

/-- The grammar as text. -/
def render (g : Grammar) : String :=
  "## terminals:\n" ++ String.intercalate " " g.terminalNames ++ "\n" ++
  "\n## end of input:\n" ++ g.nameOf g.endOfInput ++ "\n" ++
  "\n## nonterminals:\n" ++
    String.join ((g.vocabulary.ids.filter g.isNonterminal).map g.renderNonterminal) ++
  "\n## rules:\n" ++ String.join (g.rules.toList.map fun r => g.renderRule r ++ "\n")

end Grammar

end ShiftReduce
