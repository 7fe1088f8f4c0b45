import ShiftReduce.Action

/-!
# Why a parse fails

Most often the input is at fault, or the source of tokens. The other reasons lie in a table that
does not fit its rules.
-/

namespace ShiftReduce

/-- What is wrong with a table, as it shows in a parse. -/
inductive Fault (S R : Type) where
  /-- A rule is reduced that does not exist. -/
  | unknownRule (rule : R)
  /-- A rule is reduced whose body is longer than what has been seen. -/
  | stackUnderflow (rule : R)
  /-- A rule is reduced whose body is not what has been seen. -/
  | mismatch (rule : R) (expected found : S)
  | acceptedBeforeEnd
  | acceptedNothing
  /-- More than one tree is there when the input is accepted. -/
  | extraNodes (count : Nat)
  | wrongRoot (symbol : S)
deriving DecidableEq, Repr

/-- Why a parse fails, where `E` are the failures of the token source. -/
inductive ParseError (S R E : Type) where
  | source (failure : E)
  /-- The symbol in view is not acceptable in the state. It has a text unless it is the end. -/
  | unexpected (state : StateId) (symbol : S) (text : Option String)
  | internal (state : StateId) (fault : Fault S R)
  /-- The stream has nothing more to give. -/
  | exhausted (state : StateId)
deriving DecidableEq, Repr

variable {S R E : Type}

/-- The fault in words, with given texts for symbols and rules. -/
def Fault.message (symbolText : S → String) (ruleText : R → String) : Fault S R → String
  | .unknownRule rule => "unknown rule " ++ ruleText rule
  | .stackUnderflow rule => "stack underflow while reducing " ++ ruleText rule
  | .mismatch rule expected found =>
    "expected " ++ symbolText expected ++ " on the stack while reducing " ++ ruleText rule ++
      ", found " ++ symbolText found
  | .acceptedBeforeEnd => "accepted before the end of input"
  | .acceptedNothing => "accepted with an empty stack"
  | .extraNodes count => toString count ++ " extra node(s) left on the stack"
  | .wrongRoot symbol => "the root node is " ++ symbolText symbol ++ ", not the start symbol"

namespace ParseError

/-- The error in words, with given texts for symbols, rules and failures. -/
def message (symbolText : S → String) (ruleText : R → String) (failureText : E → String) :
    ParseError S R E → String
  | .source failure => "from lexer: " ++ failureText failure
  | .unexpected state symbol _ =>
    "syntax error: unexpected " ++ symbolText symbol ++ " in state " ++ StateId.render state
  | .internal state fault =>
    "internal parser error in state " ++ StateId.render state ++ ": " ++
      fault.message symbolText ruleText
  | .exhausted state =>
    "input exhausted before accepting (state " ++ StateId.render state ++ ")"

/-- The state in which the parse failed; a failure of the source has none. -/
def state? : ParseError S R E → Option StateId
  | .source _ => none
  | .unexpected state _ _ => some state
  | .internal state _ => some state
  | .exhausted state => some state

end ParseError

end ShiftReduce
