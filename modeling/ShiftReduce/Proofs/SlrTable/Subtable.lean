import ShiftReduce.Proofs.Grammar.Passes
import ShiftReduce.Proofs.SlrTable.Completeness
import ShiftReduce.Proofs.SlrTable.Conflicts

/-!
# Tables of unfinished sets

A table can be made before the passes over the rules have found all there is to find. It has fewer
reductions then, and what it has, the finished table has too (`Demands.mono`). A parser with fewer
actions makes the same moves for as long as it finds an action, and it stops where it finds none. So it
may refuse an input that the finished table takes, but the trees it gives are the same
(`ofPasses_subtable`).
-/

namespace ShiftReduce

/-! ## Parsers with fewer actions -/

namespace ParsingTable

variable {S R E : Type} [DecidableEq S] {T T' : ParsingTable S R}

/-- The actions of one table are actions of the other; in all else the two are the same. -/
structure Restricts (T' T : ParsingTable S R) : Prop where
  initial : T'.initial = T.initial
  endOfInput : T'.endOfInput = T.endOfInput
  start : T'.start = T.start
  isToken : T'.isToken = T.isToken
  production? : T'.production? = T.production?
  action? : ∀ q x act, T'.action? q x = some act → T.action? q x = some act

namespace Restricts

omit [DecidableEq S] in
theorem refuses_iff (h : T'.Restricts T) (t : Tree S R) : T'.Refuses t ↔ T.Refuses t := by
  rw [Refuses, Refuses, h.endOfInput, h.isToken]

theorem view?_eq (h : T'.Restricts T) (l : List (Input S R E)) : T'.view? l = T.view? l := by
  rcases l with _ | ⟨t | _ | e, rest⟩
  · rfl
  · rw [view?, view?, if_congr (h.refuses_iff t) rfl rfl]
  · rw [view?, view?, h.endOfInput]
  · rfl

/-- What the parser with fewer actions does, the other does. -/
theorem moves (h : T'.Restricts T) {c d : Config S R E} (move : T'.Moves c d) : T.Moves c d := by
  cases move with
  | shift seen action =>
      rw [h.view?_eq] at seen
      exact .shift seen (h.action? _ _ _ action)
  | reduce seen action rule spells =>
      rw [h.view?_eq] at seen
      rw [h.production?] at rule
      exact .reduce seen (h.action? _ _ _ action) rule spells

theorem reaches (h : T'.Restricts T) {n : Nat} {c d : Config S R E} (hreach : T'.Reaches n c d) :
    T.Reaches n c d := by
  induction hreach with
  | refl c => exact .refl c
  | head move _ ih => exact .head (h.moves move) ih

theorem step_eq_stop_ok (h : T'.Restricts T) {q : StateId} {σ : List (StateId × Tree S R)}
    {l : List (Input S R E)} {root : Tree S R}
    (hstop : (Config.over q σ l).step T' = .stop (.ok root)) :
    (Config.over q σ l).step T = .stop (.ok root) := by
  obtain ⟨p, rest, hl, action, hσ, hroot⟩ := Config.step_eq_stop_ok_iff.mp hstop
  rw [h.endOfInput] at action
  rw [h.start] at hroot
  exact Config.step_eq_stop_ok_iff.mpr ⟨p, rest, hl, h.action? _ _ _ action, hσ, hroot⟩

/-- **A tree that fewer actions give is the tree that more actions give**, in as many moves. -/
theorem parse_eq_ok_of (h : T'.Restricts T) {fuel : Nat} {items : List (Except E (Token S))}
    {tree : Tree S R} (hparse : T'.parse fuel items = some (.ok tree)) :
    T.parse fuel items = some (.ok tree) := by
  rw [parse_eq_run, h.initial] at hparse
  obtain ⟨n, q, σ, l, hn, hreach, hstop⟩ := exists_reaches_of_run_eq_some hparse
  rw [parse_eq_run]
  exact run_eq_some_of_reaches (h.reaches hreach) (h.step_eq_stop_ok hstop) hn

end Restricts

end ParsingTable

/-! ## Tables with smaller follow sets -/

namespace SlrTable

variable {g : Grammar} {sets sets' : FirstFollow} {a : Automaton} {t t' : SlrTable}

/-- Smaller follow sets demand less. -/
theorem Demands.mono (hsets : ∀ x y, y ∈ sets'.followSet x → y ∈ sets.followSet x) {i : StateId}
    {x : SymbolId} {act : Action RuleId} (h : Demands g sets' a i x act) :
    Demands g sets a i x act := by
  cases h with
  | shift edge => exact .shift edge
  | accept label? item finish => exact .accept label? item finish
  | reduce label? rule item follows => exact .reduce label? rule item (hsets _ _ follows)

theorem Conflicted.mono (hsets : ∀ x y, y ∈ sets'.followSet x → y ∈ sets.followSet x) {i : StateId}
    (h : Conflicted g sets' a i) : Conflicted g sets a i := by
  obtain ⟨x, old, new, existing, incoming, different⟩ := h
  exact ⟨x, old, new, existing.mono hsets, incoming.mono hsets, different⟩

/-- Where there is a table, there is one for smaller follow sets. -/
theorem exists_ofAutomaton_of_subset (hbuild : Automaton.build g = .ok a)
    (hsets : ∀ x y, y ∈ sets'.followSet x → y ∈ sets.followSet x)
    (h : ofAutomaton g a sets = .ok t) : ∃ t', ofAutomaton g a sets' = .ok t' := by
  have hnone := (exists_ofAutomaton_iff hbuild).mp ⟨t, h⟩
  exact (exists_ofAutomaton_iff hbuild).mpr fun i hconflicted => hnone i (hconflicted.mono hsets)

theorem action?_of_subset (hsets : ∀ x y, y ∈ sets'.followSet x → y ∈ sets.followSet x)
    (h : ofAutomaton g a sets = .ok t) (h' : ofAutomaton g a sets' = .ok t') {i : StateId}
    {x : SymbolId} {act : Action RuleId} (haction : t'.action? i x = some act) :
    t.action? i x = some act :=
  (action?_iff_of_ofAutomaton h i x act).mpr
    (((action?_iff_of_ofAutomaton h' i x act).mp haction).mono hsets)

/-- A table with some of the actions of another table of the grammar restricts it. -/
theorem restricts_parsing (hgrammar : t'.grammar = t.grammar)
    (haction : ∀ i x act, t'.action? i x = some act → t.action? i x = some act) :
    t'.parsing.Restricts t.parsing where
  initial := rfl
  endOfInput := congrArg Grammar.endOfInput hgrammar
  start := congrArg Grammar.start hgrammar
  isToken := by rw [parsing, parsing, hgrammar]
  production? := congrArg Grammar.production? hgrammar
  action? := haction

/-- **Less analysis, never a different tree.** If a grammar has a table, then after any passes from the
seed, in any order, the sets found so far give a table as well. Its actions are actions of the table of
the grammar, and what it parses to a tree, that table parses to the same tree. -/
theorem ofPasses_subtable (h : compile g = .ok t) (passes : List FirstFollow.Aspect) :
    ∃ a t', Automaton.build g = .ok a ∧ ofAutomaton g a (.ofPasses g passes) = .ok t' ∧
      (∀ i x act, t'.action? i x = some act → t.action? i x = some act) ∧
      ∀ (E : Type) (items : List (Except E (Token SymbolId))) (fuel : Nat)
        (tree : Tree SymbolId RuleId),
        t'.parse fuel items = some (.ok tree) → t.parse fuel items = some (.ok tree) := by
  obtain ⟨a, hbuild, htable⟩ := compileWith_eq_ok_iff.mp h
  have hsets : ∀ x y, y ∈ (FirstFollow.ofPasses g passes).followSet x →
      y ∈ (FirstFollow.compute g).followSet x := fun x y =>
    (FirstFollow.sound_ofPasses g passes).knows_compute (f := .follow x y)
  obtain ⟨t', htable'⟩ := exists_ofAutomaton_of_subset hbuild hsets htable
  have haction : ∀ i x act, t'.action? i x = some act → t.action? i x = some act := fun _ _ _ =>
    action?_of_subset hsets htable htable'
  have hgrammar : t'.grammar = t.grammar := by
    rw [grammar_of_ofAutomaton htable, grammar_of_ofAutomaton htable']
  exact ⟨a, t', hbuild, htable', haction, fun _ _ _ _ =>
    (restricts_parsing hgrammar haction).parse_eq_ok_of⟩

theorem isOk_compileWith_unfinished :
    (compileWith repetition (.ofPasses repetition [.follow, .first, .follow])).isOk = true := by
  decide +kernel

/-- Before it is known that an option may be empty, `y` is refused. But `x y` is taken already, and its
tree is that of the finished table. -/
theorem ofPasses_repetition : compile repetition = .ok repetitionTable ∧
    ∃ t', compileWith repetition (.ofPasses repetition [.follow, .first, .follow]) = .ok t' ∧
      (∀ tree, t'.parse (E := Empty) 10 [.ok ⟨1, "y"⟩] ≠ some (.ok tree)) ∧
      let tree := .node 3 1 [.node 3 2 [], .node 4 3 [.leaf ⟨0, "x"⟩], .leaf ⟨1, "y"⟩]
      t'.parse (E := Empty) 10 [.ok ⟨0, "x"⟩, .ok ⟨1, "y"⟩] = some (.ok tree) ∧
      repetitionTable.parse (E := Empty) 10 [.ok ⟨0, "x"⟩, .ok ⟨1, "y"⟩] = some (.ok tree) := by
  have htable : compile repetition = .ok repetitionTable := eq_ok_valueOf isOk_compile_repetition
  obtain ⟨a, t', hbuild, htable', -, hparse⟩ := ofPasses_subtable htable [.follow, .first, .follow]
  have hcompile := compileWith_eq_ok_iff.mpr ⟨a, hbuild, htable'⟩
  obtain rfl : t' = valueOf _ isOk_compileWith_unfinished :=
    Except.ok.inj (hcompile.symm.trans (eq_ok_valueOf isOk_compileWith_unfinished))
  have hrefused : ((valueOf _ isOk_compileWith_unfinished).parse (E := Empty) 10
      [.ok ⟨1, "y"⟩]).any Except.isOk = false := by
    decide +kernel
  refine ⟨htable, _, hcompile, fun tree htree => ?_, ?_⟩
  · rw [htree] at hrefused
    cases hrefused
  · intro tree
    have htree : (valueOf _ isOk_compileWith_unfinished).parse (E := Empty) 10
        [.ok ⟨0, "x"⟩, .ok ⟨1, "y"⟩] = some (.ok tree) := by
      decide +kernel
    exact ⟨htree, hparse Empty _ _ _ htree⟩

end SlrTable

end ShiftReduce
