import ShiftReduce.Automaton.Basic
import ShiftReduce.Grammar.FirstFollow

/-!
# Parsing tables of grammars

The table of a grammar has a row of actions for each state of its automaton: it shifts where the
automaton has a transition, accepts where the start symbol has been seen and only the end is
awaited, and reduces by a rule whose whole body has been seen if the symbol in view can follow the
head. A place for which two actions are demanded is a conflict, and the grammar has no table.
-/

namespace ShiftReduce

inductive TableError where
  | automaton (e : AutomatonError)
  /-- Two actions are demanded in a state for a symbol. -/
  | conflict (state : StateId) (symbol : SymbolId) (name : String)
      (existing incoming : Action RuleId)
deriving DecidableEq, Repr

/-- The number of a rule, as messages write it. -/
def RuleId.render (id : RuleId) : String := "RuleID \x7b raw: " ++ toString id ++ " \x7d"

/-- An action, as messages write it. -/
def Action.render : Action RuleId → String
  | .shift next => "Shift(" ++ StateId.render next ++ ")"
  | .reduce rule => "Reduce(" ++ RuleId.render rule ++ ")"
  | .accept => "Accept"

def TableError.message : TableError → String
  | .automaton e => e.message
  | .conflict state _ name existing incoming =>
    "conflict in state " ++ StateId.render state ++ " on " ++ quoteName name ++ ": " ++
      existing.render ++ " vs " ++ incoming.render

/-- The actions of a grammar; the row at place `i` belongs to state `i`. -/
structure SlrTable where
  grammar : Grammar
  rows : Array (Row (Action RuleId))

/-! ## Demanded actions -/

/-- The shifts that a state demands. -/
def State.shifts (s : State) : List (SymbolId × Action RuleId) :=
  s.transitions.entries.toList.map fun (x, next) => (x, .shift next)

/-- Whether a label holds an item of the accepting rule that awaits the end marker. -/
def accepts (g : Grammar) (label : ItemSet) : Bool :=
  label.toList.any fun i => i.rule = 0 ∧ i.next? g = some g.endOfInput

/-- The reductions that an item demands once its body has been seen. -/
def Item.reductions (g : Grammar) (sets : FirstFollow) (i : Item) :
    List (SymbolId × Action RuleId) :=
  if i.isComplete g then
    (g.rule? i.rule).elim [] fun r =>
      (sets.followSet r.head).toList.map fun x => (x, .reduce i.rule)
  else []

/-- All that a state demands: its shifts, its acceptance, then its reductions item by item. -/
def State.demands (g : Grammar) (sets : FirstFollow) (s : State) :
    List (SymbolId × Action RuleId) :=
  s.shifts ++ (if accepts g s.label then [(g.endOfInput, .accept)] else []) ++
    s.label.toList.flatMap (·.reductions g sets)

/-! ## Construction -/

/-- Enter demanded actions into a row, up to the first whose place is taken. -/
def enterAll (g : Grammar) (state : StateId) (row : Row (Action RuleId)) :
    List (SymbolId × Action RuleId) → Except TableError (Row (Action RuleId))
  | [] => .ok row
  | (x, action) :: rest =>
    match row.enter x action with
    | .error old => .error (.conflict state x (g.nameOf x) old action)
    | .ok row => enterAll g state row rest

namespace SlrTable

/-- The rows of states, which are numbered from the number of rows before them. -/
def rowsOf (g : Grammar) (sets : FirstFollow) (rows : Array (Row (Action RuleId))) :
    List State → Except TableError (Array (Row (Action RuleId)))
  | [] => .ok rows
  | s :: rest =>
    match enterAll g rows.size {} (s.demands g sets) with
    | .error e => .error e
    | .ok row => rowsOf g sets (rows.push row) rest

/-- The table of an automaton, with reductions as `sets` allows them. -/
def ofAutomaton (g : Grammar) (a : Automaton) (sets : FirstFollow) :
    Except TableError SlrTable :=
  match rowsOf g sets #[] a.states.toList with
  | .error e => .error e
  | .ok rows => .ok ⟨g, rows⟩

/-- The table of a grammar for the given sets. -/
def compileWith (g : Grammar) (sets : FirstFollow) : Except TableError SlrTable :=
  match Automaton.build g with
  | .error e => .error (.automaton e)
  | .ok a => ofAutomaton g a sets

/-- The table of a grammar. -/
def compile (g : Grammar) : Except TableError SlrTable :=
  compileWith g (FirstFollow.compute g)

/-! ## Queries -/

def size (t : SlrTable) : Nat := t.rows.size

/-- The actions of a state. -/
def row? (t : SlrTable) (i : StateId) : Option (Row (Action RuleId)) := t.rows[i]?

/-- What to do in a state with a symbol in view. -/
def action? (t : SlrTable) (i : StateId) (x : SymbolId) : Option (Action RuleId) :=
  (t.row? i).bind (·.find? x)

end SlrTable

end ShiftReduce
