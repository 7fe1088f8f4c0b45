import ShiftReduce.Proofs.Parser.Moves
import ShiftReduce.Proofs.Tree

/-!
# What a parse that ends well has found

For any table at all, a tree that comes out of a parse is built by the table's rules over the very
tokens of the input. The invariant is that nothing is lost on the way: the leaves of the stack, and
then what is to come with each waiting tree spread out into its leaves, are the input
(`ParsingTable.Keeps`).
-/

namespace ShiftReduce

variable {S R E : Type}

/-! ## Leaves on the stack and in the stream -/

/-- The leaves of the trees on a stack, in the order of the input. -/
def stackLeaves : List (StateId × Tree S R) → List (Token S)
  | [] => []
  | (_, t) :: σ => stackLeaves σ ++ t.leaves

theorem stackLeaves_append (popped σ : List (StateId × Tree S R)) :
    stackLeaves (popped ++ σ) =
      stackLeaves σ ++ Tree.leavesAll (popped.map Prod.snd).reverse := by
  induction popped with
  | nil => simp [Tree.leavesAll]
  | cons e popped ih =>
      rw [List.cons_append, stackLeaves, ih, List.map_cons, List.reverse_cons,
        Tree.leavesAll_append, List.append_assoc]
      simp [Tree.leavesAll]

/-- A token as it waits in the stream. -/
def Input.ofToken (t : Token S) : Input S R E := .tree (.leaf t)

theorem inputs_map_ok_append (w : List (Token S)) (rest : List (Except E (Token S))) :
    (inputs (w.map .ok ++ rest) : List (Input S R E)) = w.map Input.ofToken ++ inputs rest := by
  rw [inputs, List.map_append, List.append_assoc, List.map_map]
  rfl

/-- An input with a tree spread out into its leaves. -/
def Input.spread : Input S R E → List (Input S R E)
  | .tree t => t.leaves.map Input.ofToken
  | .finish => [.finish]
  | .failure e => [.failure e]

theorem spread_inputs (items : List (Except E (Token S))) :
    (inputs items : List (Input S R E)).flatMap Input.spread = inputs items := by
  induction items with
  | nil => rfl
  | cons item items ih =>
      cases item with
      | ok t =>
          have hcons : (inputs (.ok t :: items) : List (Input S R E)) =
              .tree (.leaf t) :: inputs items := rfl
          rw [hcons, List.flatMap_cons, ih]
          simp [Input.spread, Input.ofToken, Tree.leaves]
      | error e =>
          have hcons : (inputs (.error e :: items) : List (Input S R E)) =
              .failure e :: inputs items := rfl
          rw [hcons, List.flatMap_cons, ih]
          rfl

/-- Leaves that are followed by the end are all of an input. -/
theorem eq_map_ok_of_inputs_eq {items : List (Except E (Token S))} {w : List (Token S)}
    {rest : List (Input S R E)}
    (h : w.map Input.ofToken ++ .finish :: rest = inputs items) : items = w.map .ok := by
  induction w generalizing items with
  | nil =>
      rcases items with _ | ⟨_ | t, items⟩
      · rfl
      · cases h
      · cases h
  | cons t w ih =>
      rcases items with _ | ⟨e | t', items⟩
      · cases h
      · cases h
      · obtain ⟨hhead, htail⟩ := List.cons.inj h
        cases hhead
        rw [List.map_cons, ← ih htail]

/-! ## The invariant -/

namespace ParsingTable

/-- The tree is built by the rules of the table over tokens that it lets in. -/
structure Builds (T : ParsingTable S R) (t : Tree S R) : Prop where
  fits : t.Fits T.production?
  tokens : ∀ l ∈ t.leaves, T.isToken l.symbol = true ∧ l.symbol ≠ T.endOfInput

/-- Nothing of the input is lost, and all trees so far are built by the rules. -/
structure Keeps (T : ParsingTable S R) (all : List (Input S R E)) (c : Config S R E) : Prop where
  spelled : (stackLeaves c.stack).map Input.ofToken ++ c.coming.flatMap Input.spread = all
  stack : ∀ e ∈ c.stack, T.Builds e.2
  coming : ∀ t, .tree t ∈ c.coming → t.isLeaf ∨ T.Builds t

variable {T : ParsingTable S R}

theorem builds_leaf {t : Token S} (h : ¬ T.Refuses (.leaf t : Tree S R)) :
    T.Builds (.leaf t : Tree S R) where
  fits := .leaf t
  tokens l hl := by
    obtain rfl : l = t := by simpa [Tree.leaves] using hl
    have hfine : ¬ (l.symbol = T.endOfInput ∨ ¬ T.isToken l.symbol) :=
      fun hbad => h ⟨rfl, hbad⟩
    rw [not_or, Classical.not_not] at hfine
    exact ⟨hfine.2, hfine.1⟩

/-- A reduced tree is built by the rules if its children are. -/
theorem builds_node {r : R} {head : S} {body : List S} {popped : List (StateId × Tree S R)}
    (rule : T.production? r = some (head, body)) (spells : stackSymbols popped = body.reverse)
    (children : ∀ e ∈ popped, T.Builds e.2) :
    T.Builds (.node head r (popped.map Prod.snd).reverse) where
  fits := by
    apply Tree.Fits.node
    · rw [rule, stackSymbols_eq_reverse_iff.mp spells]
    · intro t ht
      obtain ⟨e, he, rfl⟩ := List.mem_map.mp (List.mem_reverse.mp ht)
      exact (children e he).fits
  tokens l hl := by
    rw [Tree.leaves, Tree.mem_leavesAll] at hl
    obtain ⟨t, ht, hl⟩ := hl
    obtain ⟨e, he, rfl⟩ := List.mem_map.mp (List.mem_reverse.mp ht)
    exact (children e he).tokens l hl

theorem keeps_initial (T : ParsingTable S R) (items : List (Except E (Token S))) :
    T.Keeps (inputs items) (.over T.initial [] (inputs items) : Config S R E) where
  spelled := by
    rw [Config.coming_over]
    exact spread_inputs items
  stack := by simp
  coming := by
    intro t ht
    rw [Config.coming_over] at ht
    simp only [inputs, List.mem_append, List.mem_map, List.mem_singleton, reduceCtorEq,
      or_false] at ht
    obtain ⟨item, -, hitem⟩ := ht
    cases item with
    | ok t' => cases hitem; exact Or.inl rfl
    | error e => cases hitem

variable [DecidableEq S]

/-- One move keeps the input. -/
theorem Keeps.of_moves {all : List (Input S R E)} {c d : Config S R E} (h : T.Keeps all c)
    (move : T.Moves c d) : T.Keeps all d := by
  obtain ⟨spelled, stack, coming⟩ := h
  cases move with
  | @shift q σ t rest j seen action =>
      simp only [Config.coming_over] at spelled coming
      refine ⟨?_, ?_, ?_⟩
      · -- the tree goes from the front of the stream to the top of the stack
        simpa [stackLeaves, Input.spread] using spelled
      · intro e he
        rcases List.mem_cons.mp he with rfl | he
        · rcases coming t List.mem_cons_self with hleaf | hbuilt
          · cases t with
            | leaf t =>
                apply builds_leaf
                intro hr
                rw [view?, if_pos hr] at seen
                cases seen
            | node x r ts => cases hleaf
          · exact hbuilt
        · exact stack e he
      · intro t' ht'
        rw [Config.coming_over] at ht'
        exact coming t' (List.mem_cons_of_mem _ ht')
  | @reduce q popped σ l x r head body seen action rule spells =>
      simp only [Config.coming_over] at spelled coming
      refine ⟨?_, ?_, ?_⟩
      · -- the trees go back to the front of the stream, now as one
        simpa [stackLeaves_append, Input.spread, Tree.leaves] using spelled
      · intro e he
        exact stack e (List.mem_append_right _ he)
      · intro t ht
        rw [Config.coming_over] at ht
        rcases List.mem_cons.mp ht with heq | ht
        · cases heq
          exact Or.inr (builds_node rule spells fun e he =>
            stack e (List.mem_append_left _ he))
        · exact coming t ht

theorem Keeps.of_reaches {all : List (Input S R E)} {n : Nat} {c d : Config S R E}
    (h : T.Keeps all c) (moves : T.Reaches n c d) : T.Keeps all d := by
  induction moves with
  | refl c => exact h
  | head move rest ih => exact ih (h.of_moves move)

/-! ## Parses that end well -/

/-- **Soundness over any table.** A tree that comes out of a parse is of the start symbol, its nodes
are rules of the table, and its leaves from left to right are the input: all items are tokens, none
of them is lost, doubled or moved, and each has a symbol that tokens may have. -/
theorem fits_of_parse_eq_ok {fuel : Nat} {items : List (Except E (Token S))} {root : Tree S R}
    (h : T.parse fuel items = some (.ok root)) :
    root.symbol = T.start ∧ root.Fits T.production? ∧ items = root.leaves.map .ok ∧
      ∀ l ∈ root.leaves, T.isToken l.symbol = true ∧ l.symbol ≠ T.endOfInput := by
  rw [parse_eq_run] at h
  obtain ⟨n, q, σ, l, -, hreach, hstop⟩ := exists_reaches_of_run_eq_some h
  obtain ⟨p, rest, rfl, -, rfl, hroot⟩ := Config.step_eq_stop_ok_iff.mp hstop
  have hkeeps := (keeps_initial T items).of_reaches hreach
  have hbuilt := hkeeps.stack (p, root) List.mem_cons_self
  have hspelled : root.leaves.map Input.ofToken ++ .finish :: rest.flatMap Input.spread =
      (inputs items : List (Input S R E)) := by
    have := hkeeps.spelled
    rwa [Config.coming_over] at this
  exact ⟨hroot, hbuilt.fits, eq_map_ok_of_inputs_eq hspelled, hbuilt.tokens⟩

/-- A table by hand for `S := A b` and `A :=` with nothing, over characters; `$` is the end. -/
def emptyBeforeToken : ParsingTable Char Nat where
  initial := 0
  endOfInput := '$'
  start := 'S'
  isToken x := x = 'b'
  action?
    | 0, 'b' => some (.reduce 1)
    | 0, 'A' => some (.shift 1)
    | 0, 'S' => some (.shift 3)
    | 1, 'b' => some (.shift 2)
    | 2, '$' => some (.reduce 0)
    | 3, '$' => some .accept
    | _, _ => none
  production?
    | 0 => some ('S', ['A', 'b'])
    | 1 => some ('A', [])
    | _ => none

/-- A parse with an empty tree that goes back before its lookahead. -/
theorem fits_of_parse_emptyBeforeToken :
    let items : List (Except Empty (Token Char)) := [.ok ⟨'b', "x"⟩]
    let root : Tree Char Nat := .node 'S' 0 [.node 'A' 1 [], .leaf ⟨'b', "x"⟩]
    emptyBeforeToken.parse 8 items = some (.ok root) ∧
      root.symbol = 'S' ∧ root.Fits emptyBeforeToken.production? ∧
      items = root.leaves.map .ok ∧
      ∀ l ∈ root.leaves, emptyBeforeToken.isToken l.symbol = true ∧ l.symbol ≠ '$' :=
  have hparse : emptyBeforeToken.parse 8 ([.ok ⟨'b', "x"⟩] : List (Except Empty (Token Char))) =
      some (.ok (.node 'S' 0 [.node 'A' 1 [], .leaf ⟨'b', "x"⟩])) := rfl
  ⟨hparse, fits_of_parse_eq_ok hparse⟩

end ParsingTable

end ShiftReduce
