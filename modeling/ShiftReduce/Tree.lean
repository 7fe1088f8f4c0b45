/-!
# Parse trees

A leaf is a token of the input; an inner node stands for a rule, with a child for each symbol of
the body. The leaves, from left to right, are the input that was parsed. `Tree.leaves` lists them
by recursion. `LeafIterator` finds them one at a time with a stack of subtrees, and it is what
`Tree.text` reads.
-/

namespace ShiftReduce

/-- A terminal and the text it was read from. -/
structure Token (S : Type) where
  symbol : S
  text : String
deriving DecidableEq, Repr

inductive Tree (S R : Type) where
  | leaf (token : Token S)
  | node (symbol : S) (rule : R) (children : List (Tree S R))
deriving Repr

namespace Tree

variable {S R : Type}

instance [Inhabited S] : Inhabited (Tree S R) := ⟨.leaf ⟨default, ""⟩⟩

/-! ## Equality -/

mutual
def decEq [DecidableEq S] [DecidableEq R] : (t u : Tree S R) → Decidable (t = u)
  | .leaf a, .leaf b => decidable_of_iff (a = b) (by simp)
  | .leaf _, .node .. => isFalse (by simp)
  | .node .., .leaf _ => isFalse (by simp)
  | .node s r ts, .node s' r' us =>
    have := decEqAll ts us
    decidable_of_iff (s = s' ∧ r = r' ∧ ts = us) (by simp)

def decEqAll [DecidableEq S] [DecidableEq R] : (ts us : List (Tree S R)) → Decidable (ts = us)
  | [], [] => isTrue rfl
  | [], _ :: _ => isFalse (by simp)
  | _ :: _, [] => isFalse (by simp)
  | t :: ts, u :: us =>
    have := decEq t u
    have := decEqAll ts us
    decidable_of_iff (t = u ∧ ts = us) (by simp)
end

instance [DecidableEq S] [DecidableEq R] : DecidableEq (Tree S R) := decEq

/-! ## Parts -/

/-- The symbol that the tree derives from. -/
def symbol : Tree S R → S
  | .leaf t => t.symbol
  | .node s _ _ => s

/-- The rule at the root; a leaf has none. -/
def rule? : Tree S R → Option R
  | .leaf _ => none
  | .node _ r _ => some r

def children : Tree S R → List (Tree S R)
  | .leaf _ => []
  | .node _ _ ts => ts

/-- The text of a leaf. -/
def leafText? : Tree S R → Option String
  | .leaf t => some t.text
  | .node .. => none

def isLeaf : Tree S R → Bool
  | .leaf _ => true
  | .node .. => false

mutual
/-- The number of nodes, leaves included. -/
def size : Tree S R → Nat
  | .leaf _ => 1
  | .node _ _ ts => sizeAll ts + 1

def sizeAll : List (Tree S R) → Nat
  | [] => 0
  | t :: ts => t.size + sizeAll ts
end

theorem sizeAll_append (ts us : List (Tree S R)) :
    sizeAll (ts ++ us) = sizeAll ts + sizeAll us := by
  induction ts with
  | nil => simp [sizeAll]
  | cons t ts ih => simp only [List.cons_append, sizeAll, ih]; omega

/-! ## Leaves -/

mutual
/-- The leaves from left to right. -/
def leaves : Tree S R → List (Token S)
  | .leaf t => [t]
  | .node _ _ ts => leavesAll ts

def leavesAll : List (Tree S R) → List (Token S)
  | [] => []
  | t :: ts => t.leaves ++ leavesAll ts
end

end Tree

/-- The subtrees whose leaves are still to come, the next one first. -/
structure LeafIterator (S R : Type) where
  stack : List (Tree S R)

namespace LeafIterator

variable {S R : Type}

/-- The next leaf and what comes after it. -/
def nextOf : List (Tree S R) → Option (Token S × List (Tree S R))
  | [] => none
  | .leaf t :: rest => some (t, rest)
  | .node _ _ ts :: rest => nextOf (ts ++ rest)
termination_by stack => Tree.sizeAll stack
decreasing_by
  simp only [Tree.sizeAll, Tree.size, Tree.sizeAll_append]
  omega

def next? (it : LeafIterator S R) : Option (Token S × LeafIterator S R) :=
  (nextOf it.stack).map fun (t, rest) => (t, ⟨rest⟩)

theorem sizeAll_lt_of_nextOf {stack rest : List (Tree S R)} {t : Token S}
    (h : nextOf stack = some (t, rest)) : Tree.sizeAll rest < Tree.sizeAll stack := by
  fun_induction nextOf stack with
  | case1 => simp at h
  | case2 t' rest' =>
    simp only [Option.some.injEq, Prod.mk.injEq] at h
    obtain ⟨rfl, rfl⟩ := h
    simp [Tree.sizeAll, Tree.size]
  | case3 s r ts rest' ih =>
    have := ih h
    simp only [Tree.sizeAll, Tree.size, Tree.sizeAll_append] at this ⊢
    omega

/-- All leaves still to come. -/
def toList (it : LeafIterator S R) : List (Token S) :=
  match _ : nextOf it.stack with
  | none => []
  | some (t, rest) => t :: toList ⟨rest⟩
termination_by Tree.sizeAll it.stack
decreasing_by exact sizeAll_lt_of_nextOf (by assumption)

end LeafIterator

namespace Tree

variable {S R : Type}

/-- An iterator over the leaves of the tree. -/
def leafIterator (t : Tree S R) : LeafIterator S R := ⟨[t]⟩

/-- The texts of the leaves, one after the other. -/
def text (t : Tree S R) : String :=
  String.join (t.leafIterator.toList.map Token.text)

example : (Tree.node 'S' 0 [.leaf ⟨'a', "x"⟩, .node 'E' 2 [], .leaf ⟨'b', "y"⟩]).text = "xy" := by
  decide +kernel

end Tree

end ShiftReduce
