/-!
# States and actions

The states of a parsing automaton are numbered from 0, where it starts. In a state, and with a
symbol in view, it takes one of three actions.
-/

namespace ShiftReduce

/-- The number of a state. -/
abbrev StateId := Nat

/-- A state as messages write it: its number with at least three digits. -/
def StateId.render (i : StateId) : String :=
  let digits := toString i
  "S#" ++ String.ofList (List.replicate (3 - digits.length) '0') ++ digits

/-- What to do with the symbol in view, for rules named by an `R`. -/
inductive Action (R : Type) where
  /-- Take the symbol and go to the state. -/
  | shift (next : StateId)
  /-- Put the head of the rule in place of its body. -/
  | reduce (rule : R)
  /-- The input is a sentence. -/
  | accept
deriving DecidableEq, Repr

example : StateId.render 7 = "S#007" := by decide +kernel
example : StateId.render 1234 = "S#1234" := by decide +kernel

end ShiftReduce
