import ShiftReduce.Tree

/-!
# Trees over rules

A tree fits a set of rules when each inner node is one of them: its symbol is the head, and its
children's symbols are, in order, the body. The leaves that are found one at a time with a stack are
those that recursion lists, so the text of a tree is that of its leaves (`Tree.text_eq_join`). How many
moves a parser makes for a tree is a matter of its nodes alone (`Tree.moves`).
-/

namespace ShiftReduce

namespace Tree

variable {S R : Type}

/-- Each inner node is a rule, where `prod` knows the head and the body of a rule. -/
inductive Fits (prod : R → Option (S × List S)) : Tree S R → Prop
  | leaf (t : Token S) : Fits prod (.leaf t)
  | node {x : S} {r : R} {ts : List (Tree S R)} (rule : prod r = some (x, ts.map symbol))
      (children : ∀ t ∈ ts, Fits prod t) : Fits prod (.node x r ts)

theorem Fits.of_node {prod : R → Option (S × List S)} {x : S} {r : R} {ts : List (Tree S R)}
    (h : Fits prod (.node x r ts)) :
    prod r = some (x, ts.map symbol) ∧ ∀ t ∈ ts, Fits prod t := by
  cases h with
  | node rule children => exact ⟨rule, children⟩

mutual
def decFits [DecidableEq S] (prod : R → Option (S × List S)) :
    (t : Tree S R) → Decidable (Fits prod t)
  | .leaf t => isTrue (.leaf t)
  | .node x r ts =>
    have := decFitsAll prod ts
    decidable_of_iff (prod r = some (x, ts.map symbol) ∧ ∀ t ∈ ts, Fits prod t)
      ⟨fun h => .node h.1 h.2, Fits.of_node⟩

def decFitsAll [DecidableEq S] (prod : R → Option (S × List S)) :
    (ts : List (Tree S R)) → Decidable (∀ t ∈ ts, Fits prod t)
  | [] => isTrue nofun
  | t :: ts =>
    have := decFits prod t
    have := decFitsAll prod ts
    decidable_of_iff (Fits prod t ∧ ∀ u ∈ ts, Fits prod u) (by simp)
end

instance [DecidableEq S] (prod : R → Option (S × List S)) (t : Tree S R) :
    Decidable (Fits prod t) :=
  decFits prod t

/-! ## Leaves of many trees -/

theorem leavesAll_eq_flatMap (ts : List (Tree S R)) : leavesAll ts = ts.flatMap leaves := by
  induction ts with
  | nil => rw [leavesAll, List.flatMap_nil]
  | cons t ts ih => rw [leavesAll, ih, List.flatMap_cons]

theorem leavesAll_append (ts us : List (Tree S R)) :
    leavesAll (ts ++ us) = leavesAll ts ++ leavesAll us := by
  simp only [leavesAll_eq_flatMap, List.flatMap_append]

theorem mem_leavesAll {ts : List (Tree S R)} {l : Token S} :
    l ∈ leavesAll ts ↔ ∃ t ∈ ts, l ∈ t.leaves := by
  rw [leavesAll_eq_flatMap, List.mem_flatMap]

theorem leavesAll_map_leaf (w : List (Token S)) :
    leavesAll (w.map (leaf (R := R))) = w := by
  induction w with
  | nil => rw [List.map_nil, leavesAll]
  | cons t w ih => rw [List.map_cons, leavesAll, ih, leaves, List.singleton_append]

end Tree

/-! ## Leaves one at a time -/

namespace LeafIterator

variable {S R : Type}

/-- The next leaf is the first of all leaves of the stack, and the others are still to come. -/
theorem leavesAll_eq_of_nextOf (stack : List (Tree S R)) :
    Tree.leavesAll stack =
      match nextOf stack with
      | none => []
      | some (t, rest) => t :: Tree.leavesAll rest := by
  fun_induction nextOf stack with
  | case1 => rw [Tree.leavesAll]
  | case2 t rest => rw [Tree.leavesAll, Tree.leaves, List.singleton_append]
  | case3 x r ts rest ih => rw [Tree.leavesAll, Tree.leaves, ← Tree.leavesAll_append, ih]

/-- The iterator lists the leaves of its stack. -/
theorem toList_eq_leavesAll (it : LeafIterator S R) : it.toList = Tree.leavesAll it.stack := by
  rw [toList, leavesAll_eq_of_nextOf]
  split
  · next hnext => rw [hnext]
  · next t rest hnext =>
    have := sizeAll_lt_of_nextOf hnext
    rw [hnext, toList_eq_leavesAll ⟨rest⟩]
termination_by Tree.sizeAll it.stack

end LeafIterator

namespace Tree

variable {S R : Type}

theorem text_eq_join (t : Tree S R) : t.text = String.join (t.leaves.map Token.text) := by
  rw [text, leafIterator, LeafIterator.toList_eq_leavesAll, leavesAll, leavesAll, List.append_nil]

/-- The text of a leaf is that of its token. -/
theorem text_leaf (t : Token S) : (leaf t : Tree S R).text = t.text := by
  rw [text_eq_join, leaves]
  simp [String.join]

/-! ## Moves -/

mutual
/-- The moves it takes to put a tree in view once its leaves are: one for each inner node, and one
for each tree that is shifted under it. -/
def moves : Tree S R → Nat
  | .leaf _ => 0
  | .node _ _ ts => movesAll ts + 1

/-- The moves it takes to put trees on the stack. -/
def movesAll : List (Tree S R) → Nat
  | [] => 0
  | t :: ts => t.moves + 1 + movesAll ts
end

theorem movesAll_append (ts us : List (Tree S R)) :
    movesAll (ts ++ us) = movesAll ts + movesAll us := by
  induction ts with
  | nil => rw [List.nil_append, movesAll, Nat.zero_add]
  | cons t ts ih =>
      simp only [List.cons_append, movesAll, ih]
      omega

/-- Leaves take one move each. -/
theorem movesAll_map_leaf (w : List (Token S)) : movesAll (w.map (leaf (R := R))) = w.length := by
  induction w with
  | nil => rfl
  | cons t w ih =>
      rw [List.map_cons, movesAll, ih, moves, List.length_cons, Nat.zero_add, Nat.add_comm]

end Tree

end ShiftReduce
