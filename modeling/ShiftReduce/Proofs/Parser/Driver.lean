import Mathlib.Control.Monad.Basic
import ShiftReduce.Parser.Engine

/-!
# The driver with a stack of states

The usual driver of a table keeps the states that it has entered on a stack, and asks the table only for
input tokens and the end of the input. To reduce, it takes as many states off as the body has symbols
and at once enters the state that the table shifts to on the head, so nothing goes back to the input.
Of what it takes off it looks at the number only.

It trusts its table. Where the table asks for what cannot be done, it gives up (`Verdict.broken`), and
says nothing of the input.
-/

namespace ShiftReduce

variable {S R E : Type}

/-- A driver between two steps. -/
structure Driver (S R E : Type) where
  /-- The states that were entered, the last one first, each with the tree that it was entered on. The
  initial state lies below them all. -/
  stack : List (StateId × Tree S R)
  rest : List (Except E (Token S))

/-- How a driver ends. -/
inductive Verdict (S R E : Type) where
  | result (result : Except (ParseError S R E) (Tree S R))
  /-- The table asks for what cannot be done. -/
  | broken
deriving DecidableEq

/-- The outcome of a step of a driver. -/
inductive DriverStep (S R E : Type) where
  | next (d : Driver S R E)
  | stop (verdict : Verdict S R E)

namespace Driver

/-- The state on top. -/
def state (T : ParsingTable S R) (d : Driver S R E) : StateId :=
  match d.stack with
  | [] => T.initial
  | (q, _) :: _ => q

/-- Put a tree for the head of a rule in place of as many states as the body has symbols. -/
def reduce (T : ParsingTable S R) (d : Driver S R E) (rule : R) : DriverStep S R E :=
  match T.production? rule with
  | none => .stop .broken
  | some (head, body) =>
    if d.stack.length < body.length then .stop .broken
    else
      let children := ((d.stack.take body.length).map Prod.snd).reverse
      let exposed : Driver S R E := { d with stack := d.stack.drop body.length }
      match T.action? (exposed.state T) head with
      | some (.shift q) =>
        .next { exposed with stack := (q, .node head rule children) :: exposed.stack }
      | _ => .stop .broken

/-- The tree on top is what has been read. -/
def accept (d : Driver S R E) : Verdict S R E :=
  match d.stack with
  | [] => .broken
  | (_, root) :: _ => .result (.ok root)

/-- One step. A token must carry a symbol that tokens may have; the end marker is not one. -/
def step [DecidableEq S] (T : ParsingTable S R) (d : Driver S R E) : DriverStep S R E :=
  match d.rest with
  | .error e :: _ => .stop (.result (.error (.source e)))
  | .ok l :: rest =>
    if l.symbol = T.endOfInput ∨ ¬ T.isToken l.symbol then
      .stop (.result (.error (.unexpected (d.state T) l.symbol (some l.text))))
    else
      match T.action? (d.state T) l.symbol with
      | none => .stop (.result (.error (.unexpected (d.state T) l.symbol (some l.text))))
      | some (.shift q) => .next ⟨(q, .leaf l) :: d.stack, rest⟩
      | some (.reduce rule) => d.reduce T rule
      | some .accept => .stop .broken
  | [] =>
    match T.action? (d.state T) T.endOfInput with
    | none => .stop (.result (.error (.unexpected (d.state T) T.endOfInput none)))
    | some (.shift _) => .stop .broken
    | some (.reduce rule) => d.reduce T rule
    | some .accept => .stop d.accept

/-- Go on for at most `fuel` steps; no verdict if the driver is still going. -/
def run [DecidableEq S] (T : ParsingTable S R) : Nat → Driver S R E → Option (Verdict S R E)
  | 0, _ => none
  | fuel + 1, d =>
    match d.step T with
    | .stop verdict => some verdict
    | .next d => run T fuel d

end Driver

/-- Drive a table over the items of a token source, for at most `fuel` steps. -/
def ParsingTable.drive [DecidableEq S] (T : ParsingTable S R) (fuel : Nat)
    (items : List (Except E (Token S))) : Option (Verdict S R E) :=
  Driver.run T fuel ⟨[], items⟩

/-! ## Steps

With the symbol in view known, a step is what the table says of it.
-/

namespace Driver

variable {T : ParsingTable S R} {d : Driver S R E}

/-- A reduction, where the states of the body are on top and the head can be shifted below them. -/
theorem reduce_eq_next {rule : R} {head : S} {body : List S}
    {popped below : List (StateId × Tree S R)} {q : StateId}
    (production : T.production? rule = some (head, body)) (stack : d.stack = popped ++ below)
    (length : popped.length = body.length)
    (action : T.action? (state T ⟨below, d.rest⟩) head = some (.shift q)) :
    d.reduce T rule =
      .next ⟨(q, .node head rule (popped.map Prod.snd).reverse) :: below, d.rest⟩ := by
  have henough : ¬ d.stack.length < body.length := by
    rw [stack, List.length_append, length]
    omega
  have htake : d.stack.take body.length = popped := by rw [stack, List.take_left' length]
  have hdrop : d.stack.drop body.length = below := by rw [stack, List.drop_left' length]
  simp only [reduce, production, if_neg henough, htake, hdrop, action]

variable [DecidableEq S] {l : Token S} {rest : List (Except E (Token S))}

theorem step_refused (coming : d.rest = .ok l :: rest)
    (refused : l.symbol = T.endOfInput ∨ ¬ T.isToken l.symbol) :
    d.step T = .stop (.result (.error (.unexpected (d.state T) l.symbol (some l.text)))) := by
  simp only [step, coming, if_pos refused]

theorem step_token (coming : d.rest = .ok l :: rest)
    (fine : ¬ (l.symbol = T.endOfInput ∨ ¬ T.isToken l.symbol)) :
    d.step T =
      match T.action? (d.state T) l.symbol with
      | none => .stop (.result (.error (.unexpected (d.state T) l.symbol (some l.text))))
      | some (.shift q) => .next ⟨(q, .leaf l) :: d.stack, rest⟩
      | some (.reduce rule) => d.reduce T rule
      | some .accept => .stop .broken := by
  simp only [step, coming, if_neg fine]

theorem step_end (coming : d.rest = []) :
    d.step T =
      match T.action? (d.state T) T.endOfInput with
      | none => .stop (.result (.error (.unexpected (d.state T) T.endOfInput none)))
      | some (.shift _) => .stop .broken
      | some (.reduce rule) => d.reduce T rule
      | some .accept => .stop d.accept := by
  simp only [step, coming]

end Driver

end ShiftReduce
