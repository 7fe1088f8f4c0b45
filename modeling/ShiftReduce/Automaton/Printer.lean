import ShiftReduce.Automaton.Basic

/-!
# Printed automata

Items with a dot at the cursor, states as their items and transitions, automata as their states.
-/

namespace ShiftReduce

/-- The symbols of a body, each after a space, with a dot before the place `cursor`. There is no
dot if the cursor lies beyond the end. -/
def renderBody (g : Grammar) : List SymbolId → Nat → String
  | [], cursor => if cursor = 0 then " ." else ""
  | x :: rest, 0 => " . " ++ g.nameOf x ++ String.join (rest.map fun y => " " ++ g.nameOf y)
  | x :: rest, cursor + 1 => " " ++ g.nameOf x ++ renderBody g rest cursor

/-- An item as `HEAD -> [ X . Y Z ]`. -/
def Item.render (g : Grammar) (i : Item) : String :=
  match g.rule? i.rule with
  | none => ""
  | some r => g.nameOf r.head ++ " -> [" ++ renderBody g r.body.toList i.cursor ++ " ]"

/-- A state as its items, then its transitions if it has any. -/
def State.render (g : Grammar) (s : State) : String :=
  let items := s.label.toList.map fun i => "- " ++ i.render g ++ "\n"
  let transitions := s.transitions.entries.toList.map fun (x, next) =>
    "- " ++ g.nameOf x ++ " => " ++ StateId.render next ++ "\n"
  "## items:\n" ++ String.join items ++
    if transitions.isEmpty then "" else "## transitions:\n" ++ String.join transitions

/-- An automaton as its states, with an empty line between two of them. -/
def Automaton.render (g : Grammar) (a : Automaton) : String :=
  String.intercalate "\n" (a.states.toList.mapIdx fun i s =>
    "#### State " ++ StateId.render i ++ "\n" ++ s.render g)

end ShiftReduce
