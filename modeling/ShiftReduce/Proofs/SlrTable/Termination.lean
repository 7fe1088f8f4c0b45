import Mathlib.Data.Finset.Lattice.Fold
import ShiftReduce.Proofs.Parser.Lookahead
import ShiftReduce.Proofs.SlrTable.ViablePrefix

/-!
# Parses end

Nothing in the table keeps a parser from reducing for ever between two tokens. What does is that each
stack is had on the way to a derivation tree, and the way to a derivation tree is finite. As there are
many trees that begin with the same tokens, the bound must not depend on which: what has been taken, and
the one symbol ahead, fix the moves, and of these there are only finitely many cases
(`SlrTable.exists_bound`).

So parses end where all reachable nonterminals derive terminals. Without this they need not: a grammar
without conflicts may have a parser that goes on for ever (`endless`).
-/

namespace ShiftReduce

variable {E : Type} {g : Grammar} {sets : FirstFollow} {a : Automaton} {t : SlrTable}

/-! ## What a stream shows -/

section

variable {S R : Type}

theorem feed_append (u w : List (Token S)) :
    (feed (u ++ w) : List (Input S R E)) = u.map Input.ofToken ++ feed w := by
  rw [feed, feed, List.map_append, List.append_assoc]

theorem isSource_of_mem_inputs {items : List (Except E (Token S))} :
    ∀ i ∈ (inputs items : List (Input S R E)).head?, i.isSource = true := by
  rcases items with _ | ⟨_ | l, items⟩
  · rintro i ⟨⟩
    rfl
  · rintro i ⟨⟩
    rfl
  · rintro i ⟨⟩
    rfl

end

/-- Streams of terminals with the same symbol ahead show the same. -/
theorem sight_feed_eq {y y' : List (Token SymbolId)} (hy : ∀ l ∈ y, g.IsTerminal l.symbol)
    (hy' : ∀ l ∈ y', g.IsTerminal l.symbol) (h : g.ahead y' = g.ahead y) :
    (feed y' : List (Input SymbolId RuleId E)).head?.map Input.sight =
      (feed y : List (Input SymbolId RuleId E)).head?.map Input.sight := by
  rcases y with _ | ⟨l, y⟩ <;> rcases y' with _ | ⟨l', y'⟩
  · rfl
  · exact absurd h (hy' l' List.mem_cons_self).ne_endOfInput
  · exact absurd h.symm (hy l List.mem_cons_self).ne_endOfInput
  · exact congrArg (some ∘ Sight.token) h

theorem Grammar.isLookahead_ahead {y : List (Token SymbolId)}
    (hy : ∀ l ∈ y, g.IsTerminal l.symbol) : g.IsLookahead (g.ahead y) := by
  rcases y with _ | ⟨l, y⟩
  · exact Or.inr rfl
  · exact Or.inl (hy l List.mem_cons_self)

namespace SlrTable

/-! ## A bound -/

/-- However a sentence goes on after its first tokens, there are only so many moves before the next. -/
theorem exists_bound (h : t.Describes g sets a) (closed : sets.Closed g) (u : List (Token SymbolId)) :
    ∃ N, ∀ n q σ y, (∃ tree, g.IsDerivationTree tree ∧ tree.leaves = u ++ y) →
      t.parsing.Reaches (E := E) n (.over 0 [] (feed (u ++ y))) (.over q σ (feed y)) → n < N := by
  have terminals : ∀ {y}, (∃ tree, g.IsDerivationTree tree ∧ tree.leaves = u ++ y) →
      ∀ l ∈ y, g.IsTerminal l.symbol := by
    rintro y ⟨tree, hderivation, hleaves⟩ l hl
    exact hderivation.grows.terminals l (hleaves ▸ List.mem_append_right _ hl)
  -- for each symbol ahead, one sentence that goes on with it bounds them all
  have hahead : ∀ s : SymbolId, ∃ N, ∀ n q σ y, g.ahead y = s →
      (∃ tree, g.IsDerivationTree tree ∧ tree.leaves = u ++ y) →
      t.parsing.Reaches (E := E) n (.over 0 [] (feed (u ++ y))) (.over q σ (feed y)) → n < N := by
    intro s
    by_cases hex : ∃ y, g.ahead y = s ∧ ∃ tree, g.IsDerivationTree tree ∧ tree.leaves = u ++ y
    · obtain ⟨y', hs', tree, hderivation, hleaves⟩ := hex
      obtain ⟨d, hreach, hstop⟩ := exists_reaches_accept (E := E) h closed hderivation
      refine ⟨tree.moves + 2, fun n q σ y hs hy hmoves => Nat.lt_succ_of_le ?_⟩
      rw [feed_append] at hmoves
      have hsource : ∀ i ∈ (feed y : List (Input SymbolId RuleId E)).head?, i.isSource = true := by
        rw [← inputs_map_ok]
        exact isSource_of_mem_inputs
      have hsame := hmoves.replace (feed y') hsource
        (sight_feed_eq (terminals hy) (terminals ⟨tree, hderivation, hleaves⟩) (hs'.trans hs.symm))
      rw [← feed_append, ← hleaves] at hsame
      exact hsame.le_of_stop hreach hstop
    · exact ⟨0, fun n q σ y hs hy _ => absurd ⟨y, hs, hy⟩ hex⟩
  choose bound hbound using hahead
  refine ⟨(Finset.range g.vocabulary.size).sup bound, fun n q σ y hy hmoves => ?_⟩
  have hlt := (Grammar.isLookahead_ahead (terminals hy)).lt_size
  exact lt_of_lt_of_le (hbound _ n q σ y rfl hy hmoves)
    (Finset.le_sup (Finset.mem_range.mpr hlt))

/-- Each stage is one of a stack that has taken some tokens of the items, at this move or the next. -/
theorem Stage.exists_stack (h : t.Describes g sets a) {items : List (Except E (Token SymbolId))}
    {n : Nat} {c : Config SymbolId RuleId E} (stage : Stage g a items n c) :
    ∃ σ q rest, a.Linked σ q ∧ (∀ e ∈ σ, e.2.Grows g) ∧ n ≤ stackMoves σ ∧
      items = (stackLeaves σ).map .ok ++ rest := by
  cases stage with
  | settled linked grows spelled => exact ⟨_, _, _, linked, grows, Nat.le_refl _, spelled⟩
  | @pending σ q x r us i rest linked grows tree valid next spelled =>
      obtain ⟨j, hj⟩ := linked.exists_transition h.serves valid next
        (Grammar.ne_endOfInput_of_isNonterminal tree.isNonterminal)
      refine ⟨_, j, rest, linked.push (t := .node x r us) hj, ?_, ?_, ?_⟩
      · exact List.forall_mem_cons.mpr ⟨tree, grows⟩
      · rw [stackMoves]
        omega
      · rw [spelled, stackLeaves, Tree.leaves]

/-- **Parses stop**, for a reason that lies in the input. -/
theorem exists_stop (h : t.Describes g sets a) (closed : sets.Closed g)
    (productive : ∀ x, g.Reachable x → g.isNonterminal x = true → g.Productive x)
    (items : List (Except E (Token SymbolId))) :
    ∃ n c result, t.parsing.Reaches n (.over 0 [] (inputs items)) c ∧
      c.step t.parsing = .stop result ∧ Ends g t c result := by
  choose bound hbound using exists_bound (E := E) h closed
  -- what has been taken is one of the beginnings of the items
  let taken (k : Nat) : List (Token SymbolId) := (items.take k).filterMap Except.toOption
  have htaken : ∀ {w rest}, items = w.map .ok ++ rest → taken w.length = w := by
    intro w rest hitems
    simp only [taken, hitems]
    rw [List.take_left' (List.length_map _), List.filterMap_map]
    exact List.filterMap_some
  let N := (Finset.range (items.length + 1)).sup fun k => bound (taken k)
  rcases reaches_or_stops h items N with ⟨c, hreach⟩ | ⟨m, c, result, -, hreach, hstop, hends⟩
  · -- the stack after so many moves has a completion, which allows for fewer
    exfalso
    have stage := (stage_initial g a items).of_reaches h hreach
    obtain ⟨σ, q, rest, linked, grows, hn, hitems⟩ := stage.exists_stack h
    obtain ⟨y, hcompletes⟩ := exists_completion (E := E) h closed productive linked grows
    have hlt := hbound (stackLeaves σ) _ _ _ _ hcompletes.derivation hcompletes.reaches
    have hlength : (stackLeaves σ).length < items.length + 1 := by
      rw [hitems, List.length_append, List.length_map]
      omega
    have hle : bound (taken (stackLeaves σ).length) ≤ N :=
      Finset.le_sup (f := fun k => bound (taken k)) (Finset.mem_range.mpr hlength)
    rw [htaken hitems] at hle
    omega
  · exact ⟨m, c, result, hreach, hstop, hends⟩

/-! ## Parses of grammars -/

/-- **Termination.** Where each nonterminal that the start symbol leads to derives some terminals, every
parse ends, whatever the items. -/
theorem exists_parse_eq_some
    (productive : ∀ x, g.Reachable x → g.isNonterminal x = true → g.Productive x)
    (h : compile g = .ok t) (items : List (Except E (Token SymbolId))) :
    ∃ n result, ∀ fuel, n ≤ fuel → t.parse fuel items = some result := by
  obtain ⟨a, hdescribes⟩ := describes_of_compile h
  obtain ⟨n, c, result, hreach, hstop, -⟩ := exists_stop hdescribes
    (FirstFollow.compute_proper_closed g).2 productive items
  refine ⟨n + 1, result, fun fuel hfuel => ?_⟩
  rw [parse, ParsingTable.parse_eq_run]
  exact ParsingTable.run_eq_some_of_reaches hreach hstop hfuel

end SlrTable

/-- Both nonterminals of `repetition` derive the empty sequence. -/
theorem productive_repetition {x : SymbolId} (hx : repetition.isNonterminal x = true) :
    repetition.Productive x := by
  have hcases : ∀ x < repetition.vocabulary.size, repetition.isNonterminal x = true →
      x = 3 ∨ x = 4 := by decide +kernel
  have hlist : (Tree.node 3 2 [] : Tree SymbolId RuleId).Grows repetition := by decide +kernel
  have hoption : (Tree.node 4 4 [] : Tree SymbolId RuleId).Grows repetition := by decide +kernel
  rcases hcases x (Grammar.lt_size_of_kind (Grammar.isNonterminal_iff_kind.mp hx)) hx with rfl | rfl
  · exact hlist.productive
  · exact hoption.productive

/-- A parse of `repetition` over a token and a failure of the source ends. -/
theorem exists_parse_repetition_eq_some :
    (∀ x, repetition.Reachable x → repetition.isNonterminal x = true → repetition.Productive x) ∧
      SlrTable.compile repetition = .ok repetitionTable ∧
      ∃ n result, ∀ fuel, n ≤ fuel →
        repetitionTable.parse (E := String) fuel [.ok ⟨0, "x"⟩, .error "?"] = some result :=
  have hproductive : ∀ x, repetition.Reachable x → repetition.isNonterminal x = true →
      repetition.Productive x := fun _ _ hx => productive_repetition hx
  have hcompile := eq_ok_valueOf isOk_compile_repetition
  ⟨hproductive, hcompile, SlrTable.exists_parse_eq_some hproductive hcompile _⟩

/-! ## A parse that does not end -/

/-- A parser goes on for ever in a state that, for the symbol in view, reduces an empty rule and goes
on its head to itself. -/
theorem ParsingTable.exists_reaches_of_loop {S R : Type} [DecidableEq S] {T : ParsingTable S R}
    {q : StateId} {l : List (Input S R E)} {x head : S} {r : R} (view : T.view? l = some x)
    (action : T.action? q x = some (.reduce r)) (rule : T.production? r = some (head, []))
    (back : T.action? q head = some (.shift q)) (n : Nat) :
    (∀ σ, ∃ d, T.Reaches n (.over q σ l) d) ∧
      ∀ σ, ∃ d, T.Reaches n (.over q σ (.tree (.node head r []) :: l)) d := by
  induction n with
  | zero => exact ⟨fun σ => ⟨_, .refl _⟩, fun σ => ⟨_, .refl _⟩⟩
  | succ n ih =>
      refine ⟨fun σ => ?_, fun σ => ?_⟩
      · obtain ⟨d, hd⟩ := ih.2 σ
        exact ⟨d, .head (.reduce_empty view action rule) hd⟩
      · obtain ⟨d, hd⟩ := ih.1 ((q, .node head r []) :: σ)
        exact ⟨d, .head (.shift (ParsingTable.view?_tree (T.not_refuses_node head r [])) back) hd⟩

/-- `S := c B x`, `S := A`, `A := B A` and `B :=` with nothing. `A` derives no terminals, and there may
be any number of `B` before it; that `x` can follow `B` comes from elsewhere. -/
def defineEndless : DefinitionM Unit := do
  let c ← .terminal "c"
  let x ← .terminal "x"
  let _ ← .endOfInput "end"
  let s ← .nonterminal "S"
  let a ← .nonterminal "A"
  let b ← .nonterminal "B"
  let _ ← .rule "ENCLOSED" s [c, b, x]
  let _ ← .rule "OPEN" s [a]
  let _ ← .rule "MORE" a [b, a]
  let _ ← .rule "NOTHING" b []

theorem isOk_defineEndless : (Grammar.define defineEndless).isOk = true := by decide +kernel

def endless : Grammar := valueOf _ isOk_defineEndless

theorem isOk_compile_endless : (SlrTable.compile endless).isOk = true := by decide +kernel

def endlessTable : SlrTable := valueOf _ isOk_compile_endless

/-- **A table whose parser goes on for ever.** The grammar has no conflict, and on the one token `x` the
parser takes `B` after `B`. -/
theorem parse_endless_eq_none : SlrTable.compile endless = .ok endlessTable ∧
    ∀ fuel, endlessTable.parse (E := Empty) fuel [.ok ⟨1, "x"⟩] = none := by
  refine ⟨eq_ok_valueOf isOk_compile_endless, fun fuel => ?_⟩
  let T := endlessTable.parsing
  let l : List (Input SymbolId RuleId Empty) := inputs [.ok ⟨1, "x"⟩]
  have view : T.view? l = some 1 := by decide +kernel
  have rule : T.production? 4 = some (5, []) := by decide +kernel
  have first : T.Moves (.over 0 [] l) (.over 0 [] (.tree (.node 5 4 []) :: l)) :=
    .reduce_empty view (by decide +kernel) rule
  have second : T.Moves (.over 0 [] (.tree (.node 5 4 []) :: l)) (.over 4 [(0, .node 5 4 [])] l) :=
    .shift (ParsingTable.view?_tree (T.not_refuses_node 5 4 [])) (by decide +kernel)
  obtain ⟨d, hd⟩ := (ParsingTable.exists_reaches_of_loop (q := 4) view (by decide +kernel) rule
    (by decide +kernel) fuel).1 [(0, .node 5 4 [])]
  -- so many moves are made and two more, and there is no result after fewer
  have hmoves : T.Reaches (fuel + 2) (.over 0 [] l) d := .head first (.head second hd)
  rw [SlrTable.parse, ParsingTable.parse_eq_run]
  show T.run fuel (.over 0 [] l) = none
  exact ParsingTable.run_eq_none_of_reaches hmoves (Nat.le_add_right fuel 2)

end ShiftReduce
