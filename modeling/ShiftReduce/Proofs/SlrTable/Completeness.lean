import ShiftReduce.Proofs.Parser.Soundness
import ShiftReduce.Proofs.SlrTable.Entries

/-!
# Every derivation tree is found

The parser follows a derivation tree from its leaves up, in post-order. When all trees of a body are
on the stack, what is ahead can follow the head, so the rule is reduced; and since a valid item awaits
the head, the new tree is shifted (`SlrTable.Runs`). Nothing is assumed of the other symbols of the
grammar.
-/

namespace ShiftReduce

/-! ## Tokens and then the end -/

section

variable {S R E : Type}

/-- Tokens and then the end, as they wait in the stream. -/
def feed (w : List (Token S)) : List (Input S R E) := w.map Input.ofToken ++ [.finish]

theorem inputs_map_ok (w : List (Token S)) :
    (inputs (w.map .ok) : List (Input S R E)) = feed w := by
  rw [inputs, List.map_map]
  rfl

theorem feed_cons (l : Token S) (w : List (Token S)) :
    (feed (l :: w) : List (Input S R E)) = .tree (.leaf l) :: feed w := rfl

/-- The moves that it takes to put all trees of a stack there. -/
def stackMoves : List (StateId × Tree S R) → Nat
  | [] => 0
  | (_, t) :: σ => stackMoves σ + (t.moves + 1)

theorem stateBelow_append_singleton (q p : StateId) (t : Tree S R)
    (popped : List (StateId × Tree S R)) : stateBelow q (popped ++ [(p, t)]) = p := by
  induction popped generalizing q with
  | nil => rfl
  | cons e popped ih => exact ih e.1

end

variable {E : Type} {g : Grammar} {sets : FirstFollow} {a : Automaton} {t : SlrTable}

/-! ## What is in view -/

namespace SlrTable.Describes

theorem isToken_iff (h : t.Describes g sets a) {x : SymbolId} :
    t.parsing.isToken x = true ↔ g.IsTerminal x := by
  rw [← h.grammar, Grammar.IsTerminal]
  show (t.grammar.symbol? x).any (·.kind = .terminal) = true ↔ _
  cases t.grammar.symbol? x with
  | none => simp
  | some s => simp

theorem endOfInput_eq (h : t.Describes g sets a) : t.parsing.endOfInput = g.endOfInput := by
  rw [← h.grammar]
  rfl

theorem production?_eq (h : t.Describes g sets a) {r : RuleId} {rule : Rule}
    (hr : g.rule? r = some rule) :
    t.parsing.production? r = some (rule.head, rule.body.toList) := by
  show t.grammar.production? r = _
  rw [h.grammar, Grammar.production?, hr, Option.map_some]

theorem not_refuses_leaf (h : t.Describes g sets a) {l : Token SymbolId}
    (hl : g.IsTerminal l.symbol) : ¬ t.parsing.Refuses (.leaf l) := by
  rintro ⟨-, hend | htoken⟩
  · exact hl.ne_endOfInput (hend.trans h.endOfInput_eq)
  · exact htoken (h.isToken_iff.mpr hl)

theorem not_refuses (h : t.Describes g sets a) {tree : Tree SymbolId RuleId}
    (grows : tree.Grows g) : ¬ t.parsing.Refuses tree := by
  cases tree with
  | leaf l => exact h.not_refuses_leaf (grows.terminals l (by simp [Tree.leaves]))
  | node x r ts => exact t.parsing.not_refuses_node x r ts

/-- Before terminals, what is in view is what is ahead. -/
theorem view?_feed (h : t.Describes g sets a) {w : List (Token SymbolId)}
    (hw : ∀ l ∈ w, g.IsTerminal l.symbol) :
    t.parsing.view? (feed w : List (Input SymbolId RuleId E)) = some (g.ahead w) := by
  rcases w with _ | ⟨l, w⟩
  · exact congrArg some h.endOfInput_eq
  · rw [feed_cons, ParsingTable.view?_tree (h.not_refuses_leaf (hw l List.mem_cons_self))]
    rfl

end SlrTable.Describes

/-! ## Along a tree -/

namespace SlrTable

/-- The parser puts the tree in view once its leaves are, wherever a valid item awaits its symbol and
what is ahead can follow it. -/
def Runs (E : Type) (t : SlrTable) (g : Grammar) (sets : FirstFollow) (a : Automaton)
    (tree : Tree SymbolId RuleId) : Prop :=
  ∀ σ q i rest, a.Linked σ q → g.Valid (stackSymbols σ) i → i.next? g = some tree.symbol →
    (∀ l ∈ rest, g.IsTerminal l.symbol) → g.ahead rest ∈ sets.followSet tree.symbol →
    t.parsing.Reaches (E := E) tree.moves (.over q σ (feed (tree.leaves ++ rest)))
      (.over q σ (.tree tree :: feed rest))

/-- A tree that is put in view is shifted. -/
theorem Runs.push (h : t.Describes g sets a) {tree : Tree SymbolId RuleId}
    (grows : tree.Grows g) (runs : Runs E t g sets a tree)
    {σ : List (StateId × Tree SymbolId RuleId)} {p q : StateId} {i : Item}
    {rest : List (Token SymbolId)} (linked : a.Linked σ p) (valid : g.Valid (stackSymbols σ) i)
    (next : i.next? g = some tree.symbol) (hrest : ∀ l ∈ rest, g.IsTerminal l.symbol)
    (follows : g.ahead rest ∈ sets.followSet tree.symbol)
    (edge : a.transition? p tree.symbol = some q) :
    t.parsing.Reaches (E := E) (tree.moves + 1) (.over p σ (feed (tree.leaves ++ rest)))
      (.over q ((p, tree) :: σ) (feed rest)) :=
  (runs σ p i rest linked valid next hrest follows).tail
    (.shift (ParsingTable.view?_tree (h.not_refuses grows)) (h.shift_iff.mpr edge))

/-- The parser puts the trees of the rest of a body on the stack, one after the other. -/
theorem reaches_forest (h : t.Describes g sets a) (closed : sets.Closed g) {r : RuleId}
    {rule : Rule} (hr : g.rule? r = some rule) (hmem : rule ∈ g.rules)
    {ts : List (Tree SymbolId RuleId)} (grows : ∀ u ∈ ts, u.Grows g)
    (runs : ∀ u ∈ ts, Runs E t g sets a u) {front : List SymbolId}
    (hbody : rule.body.toList = front ++ ts.map Tree.symbol)
    {σ : List (StateId × Tree SymbolId RuleId)} {q : StateId} (linked : a.Linked σ q)
    (valid : g.Valid (stackSymbols σ) ⟨r, front.length⟩) {rest : List (Token SymbolId)}
    (hrest : ∀ l ∈ rest, g.IsTerminal l.symbol)
    (follows : g.ahead rest ∈ sets.followSet rule.head) :
    ∃ q' pushed, a.Linked (pushed ++ σ) q' ∧ (pushed.map Prod.snd).reverse = ts ∧
      stateBelow q' pushed = q ∧ g.Valid (stackSymbols (pushed ++ σ)) ⟨r, rule.body.size⟩ ∧
      t.parsing.Reaches (E := E) (Tree.movesAll ts) (.over q σ (feed (Tree.leavesAll ts ++ rest)))
        (.over q' (pushed ++ σ) (feed rest)) := by
  induction ts generalizing front σ q with
  | nil =>
      have hlength : front.length = rule.body.size := by
        rw [← Array.length_toList, hbody, List.map_nil, List.append_nil]
      refine ⟨q, [], linked, rfl, rfl, hlength ▸ valid, ?_⟩
      simpa [Tree.leavesAll, Tree.movesAll] using ParsingTable.Reaches.refl _
  | cons u ts ih =>
      obtain ⟨hu, hbehind⟩ := List.forall_mem_cons.mp grows
      obtain ⟨hrun, hruns⟩ := List.forall_mem_cons.mp runs
      have next : Item.next? g ⟨r, front.length⟩ = some u.symbol := by
        rw [Item.next?_of_rule? (i := ⟨r, front.length⟩) hr, hbody]
        simp
      have inner := hu.symbol_ne_endOfInput
      obtain ⟨j, edge⟩ := linked.exists_transition h.serves valid next inner
      have hterminals : ∀ l ∈ Tree.leavesAll ts ++ rest, g.IsTerminal l.symbol :=
        List.forall_mem_append.mpr ⟨Tree.terminals_leavesAll hbehind, hrest⟩
      have hahead := closed.ahead_mem_followSet hmem hbody hbehind follows
      have hfirst := hrun.push h hu linked valid next hterminals hahead edge
      have hbody' : rule.body.toList = (front ++ [u.symbol]) ++ ts.map Tree.symbol := by
        rw [hbody, List.append_assoc, List.map_cons]
        rfl
      have hadvance : g.Valid (stackSymbols ((q, u) :: σ)) ⟨r, (front ++ [u.symbol]).length⟩ := by
        rw [List.length_append]
        exact valid.advance next inner
      obtain ⟨q', pushed, linked', hpushed, hbelow, valid', hreach⟩ :=
        ih hbehind hruns hbody' (linked.push edge) hadvance
      refine ⟨q', pushed ++ [(q, u)], ?_, ?_, stateBelow_append_singleton q' q u pushed, ?_, ?_⟩
      · rw [List.append_assoc]
        exact linked'
      · rw [List.map_append, List.reverse_append, hpushed]
        rfl
      · rw [List.append_assoc]
        exact valid'
      · rw [List.append_assoc, Tree.leavesAll, List.append_assoc, Tree.movesAll]
        exact hfirst.trans hreach

/-- **The parser follows every tree.** -/
theorem runs_of_grows (h : t.Describes g sets a) (closed : sets.Closed g)
    {tree : Tree SymbolId RuleId} (grows : tree.Grows g) : Runs E t g sets a tree := by
  induction grows using Tree.Grows.induction with
  | leaf l hterminal =>
      intro σ q i rest linked valid next hrest follows
      exact .refl _
  | node k q₀ ts hq₀ hbody children ih =>
      intro σ q i rest linked valid next hrest follows
      have hr : g.rule? (k + 1) = some q₀ := hq₀
      have hmem := Array.mem_of_getElem? hq₀
      have hbody' : q₀.body.toList = [] ++ ts.map Tree.symbol := hbody
      have begun : g.Valid (stackSymbols σ) ⟨k + 1, ([] : List SymbolId).length⟩ :=
        .predict valid
          (Item.awaits?_eq_some_iff.mpr ⟨next, Grammar.isNonterminal_head hmem⟩)
          (Grammar.mem_rulesOf.mpr ⟨k, q₀, rfl, hq₀, rfl⟩)
      obtain ⟨q', pushed, linked', hpushed, hbelow, complete, hreach⟩ :=
        reaches_forest h closed hr hmem children ih hbody' linked begun hrest follows
      -- the body is on the stack, and what is ahead can follow its head
      have hreduce : t.parsing.action? q' (g.ahead rest) = some (.reduce (k + 1)) :=
        (h.reduce_iff linked').mpr ⟨q₀, hr, complete, follows⟩
      have hspells : stackSymbols pushed = q₀.body.toList.reverse := by
        rw [stackSymbols_eq_reverse_iff, hpushed, hbody]
      have hlast := ParsingTable.Moves.reduce (σ := σ) (h.view?_feed (E := E) hrest) hreduce
        (h.production?_eq hr) hspells
      rw [hbelow, hpushed] at hlast
      rw [Tree.moves, Tree.leaves]
      exact hreach.tail hlast

/-! ## Whole parses -/

/-- A tree of the start symbol is found in so many moves, and accepted before the end. -/
theorem exists_reaches_accept (h : t.Describes g sets a) (closed : sets.Closed g)
    {tree : Tree SymbolId RuleId} (htree : g.IsDerivationTree tree) :
    ∃ d : Config SymbolId RuleId E,
      t.parsing.Reaches (tree.moves + 1) (.over 0 [] (feed tree.leaves)) d ∧
        d.step t.parsing = .stop (.ok tree) := by
  obtain ⟨root, grows⟩ := htree
  have valid : g.Valid (stackSymbols ([] : List (StateId × Tree SymbolId RuleId))) (.initial 0) :=
    .start
  have next : (Item.initial 0).next? g = some tree.symbol := congrArg some root.symm
  have inner := grows.symbol_ne_endOfInput
  obtain ⟨j, edge⟩ := Automaton.Linked.start.exists_transition h.serves valid next inner
  have hrest : ∀ l ∈ ([] : List (Token SymbolId)), g.IsTerminal l.symbol := nofun
  have follows : g.ahead [] ∈ sets.followSet tree.symbol := by
    rw [root]
    exact closed.finish
  have hpush := (runs_of_grows (E := E) h closed grows).push h grows .start valid next hrest
    follows edge
  rw [List.append_nil] at hpush
  refine ⟨_, hpush, Config.step_eq_stop_ok_iff.mpr ⟨0, [], rfl, ?_, rfl, ?_⟩⟩
  · rw [h.endOfInput_eq]
    exact (h.accept_iff (Automaton.Linked.start.push edge)).mpr
      ⟨rfl, valid.advance next inner⟩
  · show tree.symbol = t.grammar.start
    rw [h.grammar, root]

theorem parse_map_ok (t : SlrTable) (fuel : Nat) (w : List (Token SymbolId)) :
    t.parse (E := E) fuel (w.map .ok) = t.parsing.run fuel (.over 0 [] (feed w)) := by
  rw [parse, ParsingTable.parse_eq_run, inputs_map_ok]
  rfl

/-- A compiled table describes its grammar with closed sets. -/
theorem describes_of_compile (h : compile g = .ok t) :
    ∃ a, t.Describes g (FirstFollow.compute g) a :=
  describes_of_compileWith h

/-- **Completeness.** The leaves of every derivation tree are parsed to this very tree, whatever
their texts, in a known number of moves. -/
theorem parse_leaves (h : compile g = .ok t) {tree : Tree SymbolId RuleId}
    (htree : g.IsDerivationTree tree) {fuel : Nat} (hfuel : tree.moves + 1 < fuel) :
    t.parse (E := E) fuel (tree.leaves.map .ok) = some (.ok tree) := by
  obtain ⟨a, hdescribes⟩ := describes_of_compile h
  obtain ⟨d, hreach, hstop⟩ := exists_reaches_accept (E := E) hdescribes
    (FirstFollow.compute_proper_closed g).2 htree
  rw [parse_map_ok]
  exact ParsingTable.run_eq_some_of_reaches hreach hstop hfuel

end SlrTable

/-! ## A parse with empty rules -/

theorem isOk_compile_repetition : (SlrTable.compile repetition).isOk = true := by
  decide +kernel

def repetitionTable : SlrTable := valueOf _ isOk_compile_repetition

/-- A tree of `repetition` for `a b b`. -/
def repetitionTree : Tree SymbolId RuleId :=
  .node 3 1 [
    .node 3 1 [.node 3 2 [], .node 4 3 [.leaf ⟨0, "x"⟩], .leaf ⟨1, "y"⟩],
    .node 4 4 [], .leaf ⟨1, "z"⟩]

theorem parse_repetition :
    repetition.IsDerivationTree repetitionTree ∧ repetitionTree.moves + 1 < 20 ∧
      repetitionTable.parse (E := Empty) 20 [.ok ⟨0, "x"⟩, .ok ⟨1, "y"⟩, .ok ⟨1, "z"⟩] =
        some (.ok repetitionTree) :=
  have htree : repetition.IsDerivationTree repetitionTree := by decide +kernel
  have hfuel : repetitionTree.moves + 1 < 20 := by decide
  ⟨htree, hfuel, SlrTable.parse_leaves (eq_ok_valueOf isOk_compile_repetition) htree hfuel⟩

end ShiftReduce
