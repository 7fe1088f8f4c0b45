import ShiftReduce.Action

/-!
# What drives a parser

The table that a shift/reduce parser asks: where to start, what to do in a state with a symbol in
view, and what the rules are. A table need not come from a grammar.
-/

namespace ShiftReduce

/-- A table over symbols `S` and rules `R`. -/
structure ParsingTable (S R : Type) where
  initial : StateId
  /-- The symbol that stands for the end of the input. -/
  endOfInput : S
  /-- The symbol that the whole input has to be. -/
  start : S
  /-- Whether a symbol may be that of a token. -/
  isToken : S → Bool
  /-- What to do; nothing if the symbol in view is not acceptable in the state. -/
  action? : StateId → S → Option (Action R)
  /-- The head and the body of a rule; nothing for a rule that does not exist. -/
  production? : R → Option (S × List S)

end ShiftReduce
