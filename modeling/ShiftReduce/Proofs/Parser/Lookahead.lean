import ShiftReduce.Proofs.Parser.Moves

/-!
# One input of lookahead

A parser knows of the inputs it has not taken only the first, and of this one only what it shows:
the kind of item and its symbol (`Sight`). So moves that leave a tail of the input unread can be made
over any other tail that shows the same (`Reaches.swap`). That a tail is unread can be told from a
count, since what comes from the source never grows in number (`sourceCount`).
-/

namespace ShiftReduce

variable {S R E : Type}

/-! ## What an input shows -/

/-- What a parser can see of an input before it takes it. -/
inductive Sight (S : Type) where
  | token (x : S)
  | node (x : S)
  | finish
  | failure
deriving DecidableEq, Repr

def Input.sight : Input S R E → Sight S
  | .tree (.leaf t) => .token t.symbol
  | .tree (.node x _ _) => .node x
  | .finish => .finish
  | .failure _ => .failure

/-- Whether an input comes from the source; a tree with a rule was put back. -/
def Input.isSource : Input S R E → Bool
  | .tree t => t.isLeaf
  | _ => true

/-- How many inputs come from the source. -/
def sourceCount (l : List (Input S R E)) : Nat := l.countP Input.isSource

theorem sourceCount_cons_of_isSource {i : Input S R E} {l : List (Input S R E)}
    (h : i.isSource = true) : sourceCount (i :: l) = sourceCount l + 1 :=
  List.countP_cons_of_pos h

theorem sourceCount_le_cons (i : Input S R E) (l : List (Input S R E)) :
    sourceCount l ≤ sourceCount (i :: l) := by
  simp only [sourceCount, List.countP_cons]
  exact Nat.le_add_right _ _

theorem sourceCount_cons_node (x : S) (r : R) (ts : List (Tree S R)) (l : List (Input S R E)) :
    sourceCount (.tree (.node x r ts) :: l) = sourceCount l :=
  List.countP_cons_of_neg Bool.false_ne_true

variable [DecidableEq S]

namespace ParsingTable

variable {T : ParsingTable S R}

/-- The symbol in view is a matter of what the first input shows. -/
theorem view?_eq_of_sight {l l' : List (Input S R E)}
    (h : l'.head?.map Input.sight = l.head?.map Input.sight) : T.view? l' = T.view? l := by
  rcases l with _ | ⟨(t | ⟨x, r, ts⟩) | _ | e, rest⟩ <;>
    rcases l' with _ | ⟨(t' | ⟨x', r', ts'⟩) | _ | e', rest'⟩ <;>
    simp [Input.sight] at h <;>
    simp [view?, Refuses, Tree.isLeaf, Tree.symbol, h]

/-! ## Unread tails -/

/-- A move takes nothing new from the source. -/
theorem Moves.sourceCount_le {c d : Config S R E} (h : T.Moves c d) :
    sourceCount d.coming ≤ sourceCount c.coming := by
  cases h with
  | shift seen action =>
      rw [Config.coming_over, Config.coming_over]
      exact sourceCount_le_cons _ _
  | reduce seen action rule spells =>
      refine Nat.le_of_eq ?_
      rw [Config.coming_over, Config.coming_over, sourceCount_cons_node]

theorem Reaches.sourceCount_le {n : Nat} {c d : Config S R E} (h : T.Reaches n c d) :
    sourceCount d.coming ≤ sourceCount c.coming := by
  induction h with
  | refl c => exact Nat.le_refl _
  | head move rest ih => exact Nat.le_trans ih move.sourceCount_le

/-- A move that leaves a tail unread is a move over every tail that shows the same. -/
theorem Moves.swap {q : StateId} {σ : List (StateId × Tree S R)} {pre l : List (Input S R E)}
    {d : Config S R E} (h : T.Moves (.over q σ (pre ++ l)) d)
    (source : ∀ i ∈ l.head?, i.isSource = true) (unread : sourceCount l ≤ sourceCount d.coming) :
    ∃ q' σ' pre', d = .over q' σ' (pre' ++ l) ∧
      ∀ l' : List (Input S R E), l'.head?.map Input.sight = l.head?.map Input.sight →
        T.Moves (.over q σ (pre ++ l')) (.over q' σ' (pre' ++ l')) := by
  rcases pre with _ | ⟨i, pre⟩
  · rw [List.nil_append] at h
    cases h with
    | @shift _ _ t rest j seen action =>
        -- a shift would take the first input of the tail
        have htaken := sourceCount_cons_of_isSource (l := rest) (source (.tree t) rfl)
        rw [Config.coming_over] at unread
        omega
    | @reduce _ popped σ _ x r head body seen action rule spells =>
        refine ⟨_, _, [_], rfl, fun l' hl' => ?_⟩
        exact .reduce (by rw [List.nil_append, view?_eq_of_sight hl', seen]) action rule spells
  · have hview : ∀ l' : List (Input S R E), T.view? (i :: pre ++ l') = T.view? (i :: pre ++ l) :=
      fun l' => view?_eq_of_sight rfl
    rw [List.cons_append] at h
    cases h with
    | @shift _ _ t _ j seen action =>
        refine ⟨_, _, pre, rfl, fun l' _ => ?_⟩
        exact .shift ((hview l').trans seen) action
    | @reduce _ popped σ _ x r head body seen action rule spells =>
        refine ⟨_, _, _ :: i :: pre, rfl, fun l' _ => ?_⟩
        exact .reduce ((hview l').trans seen) action rule spells

/-- **Locality.** Moves that leave a tail unread are moves over every tail that shows the same. -/
theorem Reaches.swap {n : Nat} {q : StateId} {σ : List (StateId × Tree S R)}
    {pre l : List (Input S R E)} {d : Config S R E} (h : T.Reaches n (.over q σ (pre ++ l)) d)
    (source : ∀ i ∈ l.head?, i.isSource = true) (unread : sourceCount l ≤ sourceCount d.coming) :
    ∃ q' σ' pre', d = .over q' σ' (pre' ++ l) ∧
      ∀ l' : List (Input S R E), l'.head?.map Input.sight = l.head?.map Input.sight →
        T.Reaches n (.over q σ (pre ++ l')) (.over q' σ' (pre' ++ l')) := by
  induction n generalizing q σ pre with
  | zero =>
      cases h
      exact ⟨q, σ, pre, rfl, fun l' _ => .refl _⟩
  | succ n ih =>
      cases h with
      | head move rest =>
          obtain ⟨q₁, σ₁, pre₁, rfl, hmove⟩ :=
            move.swap source (Nat.le_trans unread rest.sourceCount_le)
          obtain ⟨q', σ', pre', hd, hrest⟩ := ih rest
          exact ⟨q', σ', pre', hd, fun l' hl' => .head (hmove l' hl') (hrest l' hl')⟩

/-- Moves that take all but a tail make the same stack before every tail that shows the same. -/
theorem Reaches.replace {n : Nat} {p q : StateId} {ρ σ : List (StateId × Tree S R)}
    {pre l : List (Input S R E)} (h : T.Reaches n (.over p ρ (pre ++ l)) (.over q σ l))
    (l' : List (Input S R E)) (source : ∀ i ∈ l.head?, i.isSource = true)
    (same : l'.head?.map Input.sight = l.head?.map Input.sight) :
    T.Reaches n (.over p ρ (pre ++ l')) (.over q σ l') := by
  obtain ⟨q', σ', pre', heq, hswap⟩ := h.swap source
    (Nat.le_of_eq (by rw [Config.coming_over]))
  simp only [Config.mk.injEq, PushBack.mk.injEq] at heq
  obtain ⟨rfl, rfl, -, hpre⟩ := heq
  obtain rfl : pre' = [] := List.self_eq_append_left.mp hpre
  exact hswap l' same

end ParsingTable

end ShiftReduce
