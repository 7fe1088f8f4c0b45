import ShiftReduce.Symbol

/-!
# What is wrong with a grammar

The reasons for which a declaration, a rule or a whole grammar is refused.
-/

namespace ShiftReduce

inductive GrammarError where
  | invalidName (name : String)
  | duplicateSymbol (name : String)
  | missingEndOfInput
  | duplicateEndOfInput (existing name : String)
  | undeclaredSymbol (rule : String) (symbol : SymbolRef)
  | headNotNonterminal (rule symbol : String)
  | endOfInputInRule (rule symbol : String)
  | duplicateRuleName (rule : String)
  | duplicateProduction (rule existing : String)
  | unknownStartSymbol (symbol : SymbolRef)
  | startNotNonterminal (name : String)
  | emptyNonterminals
  | tooManySymbols
  | tooManyRules
deriving DecidableEq, Repr

/-- A name between a grave accent and an apostrophe, as all messages quote names. -/
def quoteName (name : String) : String := "`" ++ name ++ "'"

/-- The reason in words. -/
def GrammarError.message : GrammarError → String
  | .invalidName name => "incorrect symbol name: " ++ quoteName name
  | .duplicateSymbol name => "the symbol " ++ quoteName name ++ " has already been declared"
  | .missingEndOfInput => "missing end-of-input symbol"
  | .duplicateEndOfInput existing name =>
    "the end-of-input symbol " ++ quoteName existing ++ " has already been declared (found " ++
      quoteName name ++ ")"
  | .undeclaredSymbol rule symbol =>
    "undeclared symbol " ++ quoteName symbol.render ++ " in rule " ++ quoteName rule
  | .headNotNonterminal rule symbol =>
    "the head of rule " ++ quoteName rule ++ " is not a nonterminal: " ++ quoteName symbol
  | .endOfInputInRule rule symbol =>
    "the end-of-input symbol " ++ quoteName symbol ++ " appears in the body of rule " ++
      quoteName rule
  | .duplicateRuleName rule => "the rule name " ++ quoteName rule ++ " has already been used"
  | .duplicateProduction rule existing =>
    "the rule " ++ quoteName rule ++ " duplicates the production of " ++ quoteName existing
  | .unknownStartSymbol symbol => "unknown start symbol: " ++ quoteName symbol.render
  | .startNotNonterminal name => "the start symbol is not a nonterminal: " ++ quoteName name
  | .emptyNonterminals => "empty nonterminal symbols"
  | .tooManySymbols => "too many symbols"
  | .tooManyRules => "too many rules"

end ShiftReduce
