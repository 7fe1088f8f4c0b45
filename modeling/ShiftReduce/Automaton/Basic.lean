import ShiftReduce.Action
import ShiftReduce.Automaton.ItemSet
import ShiftReduce.Row
import Std.Data.TreeMap

/-!
# Automata of item sets

The states of the automaton are the labels that can be reached from the closure of the accepting
rule's initial item. They are numbered in the order in which they are found: the states are taken
in the order of their numbers, and from each the awaited symbols in ascending order. The end marker
has no transitions, since a parser that sees it accepts.

A label is registered once, under the next free number (`Registry.numbers_iff`). There are at most
`maxStates` numbers.
-/

namespace ShiftReduce

/-- How many states there may be. -/
def maxStates : Nat := 65536

inductive AutomatonError where
  | tooManyStates
  /-- A state would go to two states on one symbol. -/
  | nondeterministic (state : StateId) (symbol : SymbolId) (existing incoming : StateId)
  /-- A cursor would leave its last place. -/
  | cursorOverflow (state : StateId) (symbol : SymbolId)
deriving DecidableEq, Repr

namespace AutomatonError

def message : AutomatonError → String
  | .tooManyStates => "too many states"
  | .nondeterministic state symbol existing incoming =>
    "nondeterministic transition from " ++ StateId.render state ++ " on " ++
      SymbolId.render symbol ++ ": " ++ StateId.render existing ++ " vs " ++
      StateId.render incoming
  | .cursorOverflow state symbol =>
    "a rule is too long to go on from " ++ StateId.render state ++ " on " ++
      SymbolId.render symbol

end AutomatonError

/-! ## Registered labels -/

theorem Registry.numbers_iff_empty (l : ItemSet) (i : StateId) :
    (∅ : Std.TreeMap ItemSet StateId)[l]? = some i ↔ (#[] : Array ItemSet)[i]? = some l := by
  simp

/-- The labels that have a number. -/
structure Registry where
  labels : Array ItemSet := #[]
  /-- The number of a label. -/
  numbers : Std.TreeMap ItemSet StateId := ∅
  numbers_iff : ∀ (l : ItemSet) (i : StateId), numbers[l]? = some i ↔ labels[i]? = some l := by
    exact Registry.numbers_iff_empty
  size_le : labels.size ≤ maxStates := by exact Nat.zero_le maxStates

namespace Registry

instance : Inhabited Registry := ⟨{}⟩

theorem numbers_iff_push {labels : Array ItemSet} {numbers : Std.TreeMap ItemSet StateId}
    {l : ItemSet}
    (old : ∀ (l : ItemSet) (i : StateId), numbers[l]? = some i ↔ labels[i]? = some l)
    (fresh : numbers[l]? = none) (l' : ItemSet) (i : StateId) :
    (numbers.insert l labels.size)[l']? = some i ↔ (labels.push l)[i]? = some l' := by
  have old := old l' i
  rw [Std.TreeMap.getElem?_insert, Array.getElem?_push]
  simp only [Std.LawfulEqOrd.compare_eq_iff_eq]
  by_cases hi : i = labels.size
  · subst hi
    by_cases hl : l = l'
    · simp [hl]
    · simp at old
      simp [hl, old]
  · by_cases hl : l = l'
    · subst hl
      rw [fresh] at old
      simp [hi, Ne.symm hi, ← old]
    · simp [hi, hl, old]

/-- One more label, under the next number. -/
def push (r : Registry) (l : ItemSet) (fresh : r.numbers[l]? = none)
    (room : r.labels.size < maxStates) : Registry :=
  let i := r.labels.size
  { labels := r.labels.push l
    numbers := r.numbers.insert l i
    numbers_iff := numbers_iff_push r.numbers_iff fresh
    size_le := by simpa [Nat.succ_le_iff] using room }

/-- The number of a label, which is registered if it has none yet. -/
def number (r : Registry) (l : ItemSet) : Except AutomatonError (StateId × Registry) :=
  match h : r.numbers[l]? with
  | some i => .ok (i, r)
  | none =>
    let i := r.labels.size
    if room : i < maxStates then .ok (i, r.push l h room) else .error .tooManyStates

end Registry

/-! ## Construction -/

/-- Add to a row the transitions on awaited symbols of a label. -/
def connect (g : Grammar) (state : StateId) (label : ItemSet) (r : Registry)
    (row : Row StateId) : List SymbolId → Except AutomatonError (Registry × Row StateId)
  | [] => .ok (r, row)
  | x :: rest =>
    match goto? g label x with
    | none => .error (.cursorOverflow state x)
    | some target =>
      match r.number target with
      | .error e => .error e
      | .ok (next, r) =>
        match row.enter x next with
        | .error old =>
          if old = next then connect g state label r row rest
          else .error (.nondeterministic state x old next)
        | .ok row => connect g state label r row rest

/-- Take the registered states in order, and register what they lead to, until all have their row
of transitions. -/
def explore (g : Grammar) (r : Registry) (rows : Array (Row StateId)) :
    Except AutomatonError (Registry × Array (Row StateId)) :=
  if h : rows.size < r.labels.size then
    let label := r.labels[rows.size]
    match connect g rows.size label r {} (awaitedSymbols g label).toList with
    | .error e => .error e
    | .ok (r', row) => explore g r' (rows.push row)
  else .ok (r, rows)
termination_by maxStates - rows.size
decreasing_by
  have := r.size_le
  rw [Array.size_push]
  omega

structure State where
  label : ItemSet
  transitions : Row StateId

/-- The automaton; the state at place `i` has the number `i`. -/
structure Automaton where
  states : Array State

namespace Automaton

/-- The label that the automaton starts from. -/
def startLabel (g : Grammar) : ItemSet := closure g [Item.initial 0]

/-- The automaton of a grammar. -/
def build (g : Grammar) : Except AutomatonError Automaton :=
  match ({} : Registry).number (startLabel g) with
  | .error e => .error e
  | .ok (_, r) =>
    match explore g r #[] with
    | .error e => .error e
    | .ok (r, rows) => .ok ⟨r.labels.zipWith State.mk rows⟩

def size (a : Automaton) : Nat := a.states.size

/-- The state with a number. -/
def state? (a : Automaton) (i : StateId) : Option State := a.states[i]?

/-- Where a state goes on a symbol. -/
def transition? (a : Automaton) (i : StateId) (x : SymbolId) : Option StateId :=
  (a.state? i).bind (·.transitions.find? x)

end Automaton

end ShiftReduce
