import ShiftReduce.Proofs.SlrTable.Completeness

/-!
# The stages of a parse

Over any items at all, a parser with the table of a grammar is at one of two stages
(`SlrTable.Stage`): its stack is a path with trees of the grammar over what it has taken, or besides
such a stack it has a reduced tree in view that a valid item awaits. From either it goes on to another
stage, or it stops for a reason that lies in the input (`Stage.proceeds`): a reduced tree is always shifted,
and a table of a grammar is never at fault.

A stage counts the moves that led to it, and the count is a matter of the trees on the stack.
-/

namespace ShiftReduce

section

variable {S R E : Type}

theorem stackMoves_append (popped σ : List (StateId × Tree S R)) :
    stackMoves (popped ++ σ) = stackMoves σ + Tree.movesAll (popped.map Prod.snd).reverse := by
  induction popped with
  | nil => rfl
  | cons e popped ih =>
      rw [List.cons_append, stackMoves, ih, List.map_cons, List.reverse_cons,
        Tree.movesAll_append, Tree.movesAll, Tree.movesAll, Nat.add_zero, Nat.add_assoc]

theorem inputs_cons_ok (l : Token S) (items : List (Except E (Token S))) :
    (inputs (.ok l :: items) : List (Input S R E)) = .tree (.leaf l) :: inputs items := rfl

theorem inputs_injective {items items' : List (Except E (Token S))}
    (h : (inputs items : List (Input S R E)) = inputs items') : items = items' := by
  induction items generalizing items' with
  | nil =>
      rcases items' with _ | ⟨_ | l, items'⟩
      · rfl
      · cases h
      · cases h
  | cons item items ih =>
      rcases items' with _ | ⟨item', items'⟩
      · cases item <;> cases h
      · obtain ⟨hhead, htail⟩ := List.cons.inj h
        rw [ih htail]
        rcases item with e | l <;> rcases item' with e' | l' <;> cases hhead <;> rfl

theorem inputs_ne_node {items : List (Except E (Token S))} {x : S} {r : R}
    {ts : List (Tree S R)} {l : List (Input S R E)} : inputs items ≠ .tree (.node x r ts) :: l := by
  rcases items with _ | ⟨_ | t, items⟩
  · nofun
  · nofun
  · nofun

end

namespace SlrTable

variable {E : Type} {g : Grammar} {sets : FirstFollow} {a : Automaton} {t : SlrTable}
  {items : List (Except E (Token SymbolId))}

/-! ## Stages -/

/-- What a parser can be at after a number of moves over some items. -/
inductive Stage (g : Grammar) (a : Automaton) (items : List (Except E (Token SymbolId))) :
    Nat → Config SymbolId RuleId E → Prop
  | settled {σ q rest} (linked : a.Linked σ q) (grows : ∀ e ∈ σ, e.2.Grows g)
      (spelled : items = (stackLeaves σ).map .ok ++ rest) :
      Stage g a items (stackMoves σ) (.over q σ (inputs rest))
  | pending {σ q x r us i rest} (linked : a.Linked σ q) (grows : ∀ e ∈ σ, e.2.Grows g)
      (tree : (Tree.node x r us).Grows g) (valid : g.Valid (stackSymbols σ) i)
      (next : i.next? g = some x)
      (spelled : items = (stackLeaves σ ++ Tree.leavesAll us).map .ok ++ rest) :
      Stage g a items (stackMoves σ + (Tree.node x r us).moves)
        (.over q σ (.tree (.node x r us) :: inputs rest))

theorem stage_initial (g : Grammar) (a : Automaton) (items : List (Except E (Token SymbolId))) :
    Stage g a items 0 (.over 0 [] (inputs items)) :=
  .settled .start nofun rfl

/-- How a parser can stop, and with what result. -/
inductive Ends (g : Grammar) (t : SlrTable) :
    Config SymbolId RuleId E → Except (ParseError SymbolId RuleId E) (Tree SymbolId RuleId) → Prop
  | accepted {q p tree} (derivation : g.IsDerivationTree tree) :
      Ends g t (.over q [(p, tree)] (inputs [])) (.ok tree)
  | refused {q σ l rest} (stuck : ¬ g.IsTerminal l.symbol ∨ t.action? q l.symbol = none) :
      Ends g t (.over q σ (inputs (.ok l :: rest))) (.error (.unexpected q l.symbol (some l.text)))
  | early {q σ} (stuck : t.action? q g.endOfInput = none) :
      Ends g t (.over q σ (inputs [])) (.error (.unexpected q g.endOfInput none))
  | failed {q σ e rest} : Ends g t (.over q σ (inputs (.error e :: rest))) (.error (.source e))

/-! ## From one stage to the next -/

/-- The parser moves on to another stage, or it stops for a reason that lies in the input. -/
def Proceeds (g : Grammar) (t : SlrTable) (a : Automaton)
    (items : List (Except E (Token SymbolId))) (n : Nat) (c : Config SymbolId RuleId E) : Prop :=
  (∃ d, t.parsing.Moves c d ∧ Stage g a items (n + 1) d) ∨
    ∃ result, c.step t.parsing = .stop result ∧ Ends g t c result

section

variable {σ : List (StateId × Tree SymbolId RuleId)} {q : StateId}
  {rest : List (Except E (Token SymbolId))}

/-- A complete valid item is reduced, and its head is awaited. -/
theorem proceeds_reduce (h : t.Describes g sets a) (linked : a.Linked σ q)
    (grows : ∀ e ∈ σ, e.2.Grows g) (spelled : items = (stackLeaves σ).map .ok ++ rest)
    {x : SymbolId} (view : t.parsing.view? (inputs rest : List (Input SymbolId RuleId E)) = some x)
    {r : RuleId} (action : t.action? q x = some (.reduce r)) :
    Proceeds g t a items (stackMoves σ) (.over q σ (inputs rest)) := by
  left
  obtain ⟨k, rule, popped, below, i, rfl, hr, rfl, hpopped, valid, next⟩ :=
    h.exists_body_of_reduce linked action
  obtain ⟨hchildren, hbelow⟩ := List.forall_mem_append.mp grows
  have hnode : (Tree.node rule.head (k + 1) (popped.map Prod.snd).reverse).Grows g := by
    have hsymbols := stackSymbols_eq_reverse_iff.mp hpopped
    apply Tree.grows_node
    · rw [hsymbols]
      exact Grammar.given?_eq_some_iff.mpr ⟨k, rule, rfl, hr, rfl, rfl⟩
    · intro u hu
      obtain ⟨e, he, rfl⟩ := List.mem_map.mp (List.mem_reverse.mp hu)
      exact hchildren e he
  refine ⟨_, .reduce view action (h.production?_eq hr) hpopped, ?_⟩
  rw [stackLeaves_append] at spelled
  rw [stackMoves_append, Nat.add_assoc]
  exact .pending linked.of_append hbelow hnode valid next spelled

/-- With the end in view nothing is shifted, and what is accepted is a derivation tree. -/
theorem proceeds_end (h : t.Describes g sets a) (linked : a.Linked σ q)
    (grows : ∀ e ∈ σ, e.2.Grows g) (spelled : items = (stackLeaves σ).map .ok ++ []) :
    Proceeds g t a items (stackMoves σ) (.over q σ (inputs [])) := by
  have view : t.parsing.view? (inputs [] : List (Input SymbolId RuleId E)) =
      some g.endOfInput := congrArg some h.endOfInput_eq
  rcases haction : t.action? q g.endOfInput with _ | (j | r | _)
  · exact Or.inr ⟨_, Config.step_of_action?_eq_none view haction, .early haction⟩
  · obtain ⟨i, -, -, inner⟩ := linked.exists_awaits h.serves (h.shift_iff.mp haction)
    exact absurd rfl inner
  · exact proceeds_reduce h linked grows spelled view haction
  · obtain ⟨-, p, tree, rfl, root⟩ := h.exists_root_of_accept linked haction
    have haccept : t.parsing.action? q t.parsing.endOfInput = some .accept := by
      rw [h.endOfInput_eq]
      exact haction
    have hroot : tree.symbol = t.parsing.start := by
      show tree.symbol = t.grammar.start
      rw [h.grammar]
      exact root
    have hstop : (Config.over q [(p, tree)] (inputs [] : List (Input SymbolId RuleId E))).step
        t.parsing = .stop (.ok tree) :=
      Config.step_eq_stop_ok_iff.mpr ⟨p, [], rfl, haccept, rfl, hroot⟩
    exact Or.inr ⟨.ok tree, hstop, .accepted ⟨root, grows _ List.mem_cons_self⟩⟩

/-- A token in view is shifted or stops the parser, or something is reduced before it. -/
theorem proceeds_token (h : t.Describes g sets a) (linked : a.Linked σ q)
    (grows : ∀ e ∈ σ, e.2.Grows g) {l : Token SymbolId}
    (spelled : items = (stackLeaves σ).map .ok ++ .ok l :: rest) :
    Proceeds g t a items (stackMoves σ) (.over q σ (inputs (.ok l :: rest))) := by
  by_cases hl : g.IsTerminal l.symbol
  · have view : t.parsing.view? (inputs (.ok l :: rest) : List (Input SymbolId RuleId E)) =
        some l.symbol := ParsingTable.view?_tree (h.not_refuses_leaf hl)
    rcases haction : t.action? q l.symbol with _ | (j | r | _)
    · have hstop := Config.step_of_action?_eq_none (q := q) (σ := σ) view haction
      rw [inputs_cons_ok, viewText?, Tree.text_leaf] at hstop
      exact Or.inr ⟨_, hstop, .refused (Or.inr haction)⟩
    · refine Or.inl ⟨_, .shift view haction, ?_⟩
      have hlinked := linked.push (t := .leaf l) (h.shift_iff.mp haction)
      refine .settled hlinked (List.forall_mem_cons.mpr ⟨Tree.grows_leaf hl, grows⟩) ?_
      rw [spelled, stackLeaves, Tree.leaves, List.map_append, List.append_assoc]
      rfl
    · exact proceeds_reduce h linked grows spelled view haction
    · exact absurd (h.exists_root_of_accept linked haction).1 hl.ne_endOfInput
  · have hrefuse : t.parsing.Refuses (.leaf l) :=
      ⟨rfl, Or.inr fun htoken => hl (h.isToken_iff.mp htoken)⟩
    have view : t.parsing.view? (inputs (.ok l :: rest) : List (Input SymbolId RuleId E)) =
        none := if_pos hrefuse
    have hstop : (Config.over q σ (inputs (.ok l :: rest))).step t.parsing =
        .stop (.error (.unexpected q l.symbol (some (Tree.leaf l : Tree _ RuleId).text))) :=
      Config.step_of_view?_eq_none view
    rw [Tree.text_leaf] at hstop
    exact Or.inr ⟨_, hstop, .refused (Or.inl hl)⟩

/-- A reduced tree in view is shifted. -/
theorem proceeds_node (h : t.Describes g sets a) (linked : a.Linked σ q)
    (grows : ∀ e ∈ σ, e.2.Grows g) {x : SymbolId} {r : RuleId} {us : List (Tree SymbolId RuleId)}
    (tree : (Tree.node x r us).Grows g) {i : Item} (valid : g.Valid (stackSymbols σ) i)
    (next : i.next? g = some x)
    (spelled : items = (stackLeaves σ ++ Tree.leavesAll us).map .ok ++ rest) :
    Proceeds g t a items (stackMoves σ + (Tree.node x r us).moves)
      (.over q σ (.tree (.node x r us) :: inputs rest)) := by
  have inner := Grammar.ne_endOfInput_of_isNonterminal tree.isNonterminal
  obtain ⟨j, hj⟩ := h.exists_shift linked valid next inner
  refine Or.inl ⟨_, .shift (ParsingTable.view?_tree (h.not_refuses tree)) hj, ?_⟩
  have hlinked := linked.push (t := .node x r us) (h.shift_iff.mp hj)
  refine .settled hlinked (List.forall_mem_cons.mpr ⟨tree, grows⟩) ?_
  rw [spelled, stackLeaves, Tree.leaves]

end

/-- **Progress.** From each stage the parser moves on to another, or it stops for a reason that lies
in the input. -/
theorem Stage.proceeds (h : t.Describes g sets a) {n : Nat} {c : Config SymbolId RuleId E}
    (stage : Stage g a items n c) : Proceeds g t a items n c := by
  cases stage with
  | @settled σ q rest linked grows spelled =>
      rcases rest with _ | ⟨e | l, rest⟩
      · exact proceeds_end h linked grows spelled
      · exact Or.inr ⟨_, Config.step_of_view?_eq_none rfl, .failed⟩
      · exact proceeds_token h linked grows spelled
  | pending linked grows tree valid next spelled =>
      exact proceeds_node h linked grows tree valid next spelled

/-! ## Whole runs -/

theorem Stage.of_reaches (h : t.Describes g sets a) {n m : Nat} {c d : Config SymbolId RuleId E}
    (stage : Stage g a items n c) (moves : t.parsing.Reaches m c d) :
    Stage g a items (n + m) d := by
  induction moves generalizing n with
  | refl c => exact stage
  | @head m c c' d move rest ih =>
      rcases stage.proceeds h with ⟨c'', move', stage'⟩ | ⟨result, hstop, -⟩
      · obtain rfl := move.deterministic move'
        rw [Nat.add_left_comm, Nat.add_comm m] at *
        exact ih stage'
      · rw [move.step] at hstop
        cases hstop

/-- A parse is still going after a number of moves, or has stopped before. -/
theorem reaches_or_stops (h : t.Describes g sets a) (items : List (Except E (Token SymbolId)))
    (n : Nat) :
    (∃ c, t.parsing.Reaches n (.over 0 [] (inputs items)) c) ∨
      ∃ m c result, m < n ∧ t.parsing.Reaches m (.over 0 [] (inputs items)) c ∧
        c.step t.parsing = .stop result ∧ Ends g t c result := by
  induction n with
  | zero => exact Or.inl ⟨_, .refl _⟩
  | succ n ih =>
      rcases ih with ⟨c, hreach⟩ | ⟨m, c, result, hm, hreach, hstop⟩
      · rcases ((stage_initial g a items).of_reaches h hreach).proceeds h with
          ⟨d, move, -⟩ | ⟨result, hstop⟩
        · exact Or.inl ⟨d, hreach.tail move⟩
        · exact Or.inr ⟨n, c, result, Nat.lt_succ_self n, hreach, hstop⟩
      · exact Or.inr ⟨m, c, result, Nat.lt_succ_of_lt hm, hreach, hstop⟩

end SlrTable

end ShiftReduce
