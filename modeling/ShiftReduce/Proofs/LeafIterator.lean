import ShiftReduce.Proofs.Source
import ShiftReduce.Proofs.Tree

/-!
# Leaves one at a time

The iterator over the leaves of a tree keeps a stack of the subtrees that it has not visited, and takes it
apart until there is a leaf on top. Whatever is on the stack, its next leaf is the first of the leaves of
these subtrees, and what it keeps has the others (`LeafIterator.leavesAll_eq_of_nextOf`). So as a source it
gives what recursion lists, and at every moment what it has not given yet (`Tree.leafIterator_gives`).
-/

namespace ShiftReduce

variable {S R : Type}

namespace LeafIterator

/-- When there are no leaves any more the stack is empty. -/
instance : Source (LeafIterator S R) (Token S) where
  pull it :=
    match it.next? with
    | some (t, it) => (some t, it)
    | none => (none, ⟨[]⟩)

/-- What the iterator gives first is the first leaf of its stack. -/
theorem pull_fst (it : LeafIterator S R) :
    (Source.pull it).1 = (Tree.leavesAll it.stack).head? := by
  rw [leavesAll_eq_of_nextOf]
  simp only [Source.pull, next?]
  cases nextOf it.stack <;> rfl

/-- What it keeps has the other leaves. -/
theorem leavesAll_pull (it : LeafIterator S R) :
    Tree.leavesAll (Source.pull it).2.stack = (Tree.leavesAll it.stack).tail := by
  rw [leavesAll_eq_of_nextOf it.stack]
  simp only [Source.pull, next?]
  cases nextOf it.stack with
  | none =>
      show Tree.leavesAll [] = []
      rw [Tree.leavesAll]
  | some next => rfl

/-- An iterator gives the leaves of its stack. -/
theorem gives_leavesAll (it : LeafIterator S R) : Source.Gives it (Tree.leavesAll it.stack) :=
  Source.gives_of_view pull_fst leavesAll_pull it

end LeafIterator

namespace Tree

/-- The text of a node is that of its children, one after the other. -/
theorem text_node (x : S) (r : R) (ts : List (Tree S R)) :
    (node x r ts).text = String.join (ts.map text) := by
  rw [text_eq_join, leaves]
  induction ts with
  | nil => rfl
  | cons t ts ih =>
      rw [leavesAll, List.map_append, String.join_append, ih, ← text_eq_join, List.map_cons,
        String.join_cons]

/-- **The iterator gives the leaves from left to right**, each once, and then nothing. After any number of
calls it gives those that it has not given, and these are what it lists if it is called until nothing is
left. The text of a tree is that of its leaves, and so that of its children. -/
theorem leafIterator_gives (t : Tree S R) :
    Source.Gives t.leafIterator t.leaves ∧
      (∀ n, Source.Gives (Source.after n t.leafIterator) (t.leaves.drop n) ∧
        (Source.after n t.leafIterator).toList = t.leaves.drop n) ∧
      t.text = String.join (t.leaves.map Token.text) ∧
      ∀ (x : S) (r : R) (ts : List (Tree S R)), (node x r ts).text = String.join (ts.map text) := by
  have gives : Source.Gives t.leafIterator t.leaves := by
    have hstack := t.leafIterator.gives_leavesAll
    rwa [leafIterator, leavesAll, leavesAll, List.append_nil] at hstack
  refine ⟨gives, fun n => ⟨gives.after n, ?_⟩, t.text_eq_join, text_node⟩
  rw [LeafIterator.toList_eq_leavesAll]
  exact (LeafIterator.gives_leavesAll _).unique (gives.after n)

end Tree

end ShiftReduce
