import ShiftReduce.Grammar.Basic
import ShiftReduce.OrderedSet

/-!
# Items

A rule with a cursor in its body: what stands before the cursor has been seen, what stands behind
it is awaited. Items are ordered by rule, then by cursor.
-/

namespace ShiftReduce

structure Item where
  rule : RuleId
  cursor : Nat
deriving DecidableEq, Repr

namespace Item

instance : Ord Item := ⟨fun i j => (compare i.rule j.rule).then (compare i.cursor j.cursor)⟩

theorem compare_eq (i j : Item) :
    compare i j = (compare i.rule j.rule).then (compare i.cursor j.cursor) := rfl

instance : Std.TransOrd Item where
  eq_swap {i j} := by
    rw [compare_eq, compare_eq j i, Std.OrientedOrd.eq_swap (a := i.rule) (b := j.rule),
      Std.OrientedOrd.eq_swap (a := i.cursor) (b := j.cursor), Ordering.swap_then]
  isLE_trans {i j k} h₁ h₂ := by
    simp only [compare_eq, Ordering.isLE_then_iff_and, Nat.isLE_compare, Nat.compare_eq_lt] at *
    omega

instance : Std.LawfulEqOrd Item where
  compare_self := by simp
  eq_of_compare {i j} h := by
    rw [compare_eq, Ordering.then_eq_eq, Nat.compare_eq_eq, Nat.compare_eq_eq] at h
    cases i; cases j; simp_all

/-- The item of a rule of which nothing has been seen. -/
def initial (rule : RuleId) : Item := ⟨rule, 0⟩

/-- The symbol behind the cursor. -/
def next? (g : Grammar) (i : Item) : Option SymbolId := g.symbolAt? i.rule i.cursor

/-- The nonterminal behind the cursor. -/
def awaits? (g : Grammar) (i : Item) : Option SymbolId := (i.next? g).filter g.isNonterminal

/-- Whether the whole body has been seen. -/
def isComplete (g : Grammar) (i : Item) : Bool :=
  (g.rule? i.rule).any fun r => i.cursor = r.body.size

theorem isComplete_iff {g : Grammar} {i : Item} :
    i.isComplete g = true ↔ ∃ r, g.rule? i.rule = some r ∧ i.cursor = r.body.size := by
  simp only [isComplete, Option.any_eq_true, decide_eq_true_eq]

/-- The item with its cursor one symbol further on. -/
def advance (i : Item) : Item := { i with cursor := i.cursor + 1 }

/-- The last place that a cursor can reach. -/
def maxCursor : Nat := 65535

/-- The item with its cursor one symbol further on, unless the cursor is at its last place. -/
def advance? (i : Item) : Option Item := if i.cursor < maxCursor then some i.advance else none

end Item

end ShiftReduce
