import ShiftReduce.Proofs.SlrTable.Stages

/-!
# What is on the stack begins a sentence

Where all reachable nonterminals derive terminals, a stack that is a path is never a dead end: the
trees on it can be completed to a derivation tree, and the parser comes to this very stack over the
leaves of that tree (`SlrTable.exists_completion`). The induction is on how an item of the stack came to
be valid. A prediction needs trees for what stands behind the awaited nonterminal, and here it is that
productivity is used.
-/

namespace ShiftReduce

variable {E : Type} {g : Grammar} {sets : FirstFollow} {a : Automaton} {t : SlrTable}

/-! ## What an item still awaits -/

/-- The symbols behind the cursor, without the end marker. -/
def Item.awaited (g : Grammar) (i : Item) : List SymbolId :=
  (((g.rule? i.rule).elim [] fun r => r.body.toList).drop i.cursor).filter (· ≠ g.endOfInput)

theorem Item.awaited_of_next? {i : Item} {x : SymbolId} (next : i.next? g = some x)
    (inner : x ≠ g.endOfInput) : i.awaited g = x :: i.advance.awaited g := by
  obtain ⟨r, hr, hx⟩ := Option.bind_eq_some_iff.mp next
  rw [← Array.getElem?_toList, List.getElem?_eq_some_iff] at hx
  obtain ⟨hlt, hx⟩ := hx
  simp only [awaited, advance, hr, Option.elim_some]
  rw [List.drop_eq_getElem_cons hlt, hx, List.filter_cons_of_pos (by simpa using inner)]

/-- Of a given rule the item awaits all that stands behind the cursor. -/
theorem Item.awaited_given {k : Nat} {r : Rule} (hr : g.rules[k]? = some r) (c : Nat) :
    Item.awaited g ⟨k + 1, c⟩ = r.body.toList.drop c := by
  have hrule : g.rule? (k + 1) = some r := hr
  rw [awaited, hrule, Option.elim_some, List.filter_eq_self]
  intro x hx
  exact decide_eq_true (Grammar.ne_endOfInput_of_mem_body (Array.mem_of_getElem? hr)
    (Array.mem_toList_iff.mp (List.mem_of_mem_drop hx)))

/-- What a valid item awaits can be completed, if what is reachable is productive. -/
theorem Grammar.Valid.exists_trees
    (productive : ∀ x, g.Reachable x → g.isNonterminal x = true → g.Productive x)
    {γ : List SymbolId} {i : Item} (valid : g.Valid γ i) :
    ∃ ts : List (Tree SymbolId RuleId), ts.map Tree.symbol = i.awaited g ∧ ∀ u ∈ ts, u.Grows g := by
  obtain ⟨r, hr, -⟩ := valid.exists_rule
  suffices htrees : ∀ xs : List SymbolId, (∀ x ∈ xs, g.Productive x) →
      ∃ ts : List (Tree SymbolId RuleId), ts.map Tree.symbol = xs ∧ ∀ u ∈ ts, u.Grows g by
    refine htrees _ fun x hx => ?_
    obtain ⟨hdrop, hinner⟩ := List.mem_filter.mp hx
    rw [hr, Option.elim_some] at hdrop
    have inner : x ≠ g.endOfInput := of_decide_eq_true hinner
    have hmem : x ∈ r.body := Array.mem_toList_iff.mp (List.mem_of_mem_drop hdrop)
    have hreachable := reachable_of_mem_body hr (fun hk => valid.reachable_head hr hk) hmem inner
    rcases isTerminal_or_isNonterminal_of_mem_body hr hmem inner with hterminal | hnon
    · exact hterminal.productive
    · exact productive x hreachable hnon
  intro xs hxs
  induction xs with
  | nil => exact ⟨[], rfl, nofun⟩
  | cons x xs ih =>
      obtain ⟨hx, hxs⟩ := List.forall_mem_cons.mp hxs
      obtain ⟨ts, hts, grows⟩ := ih hxs
      obtain ⟨u, hu, hgrows⟩ := hx.exists_tree
      refine ⟨u :: ts, ?_, List.forall_mem_cons.mpr ⟨hgrows, grows⟩⟩
      rw [List.map_cons, hu, hts]

/-! ## What may come behind a body -/

/-- What may come behind the body of a rule: nothing behind that of the accepting rule, else what can
follow the head. -/
def FirstFollow.Permits (g : Grammar) (sets : FirstFollow) (z : List (Token SymbolId)) :
    RuleId → Prop
  | 0 => z = []
  | k + 1 => ∀ r, g.rules[k]? = some r → g.ahead z ∈ sets.followSet r.head

theorem FirstFollow.Closed.ahead_of_permits (closed : sets.Closed g) {γ : List SymbolId} {i : Item}
    (valid : g.Valid γ i) {x : SymbolId} (next : i.next? g = some x) (inner : x ≠ g.endOfInput)
    {ts : List (Tree SymbolId RuleId)} (hts : ts.map Tree.symbol = i.advance.awaited g)
    (grows : ∀ u ∈ ts, u.Grows g) {z : List (Token SymbolId)} (permits : sets.Permits g z i.rule) :
    g.ahead (Tree.leavesAll ts ++ z) ∈ sets.followSet x := by
  obtain ⟨q, c⟩ := i
  rcases q with _ | k
  · obtain rfl : z = [] := permits
    rcases valid.of_rule_zero rfl with ⟨hi, -⟩ | ⟨hi, -⟩
    · cases hi
      obtain rfl : g.start = x := Option.some.inj next
      have hnil : Item.awaited g (Item.initial 0).advance = [] := by
        rw [Item.awaited, List.filter_eq_nil_iff]
        intro y hy
        obtain rfl : y = g.endOfInput := List.mem_singleton.mp hy
        simp
      obtain rfl : ts = [] := List.map_eq_nil_iff.mp (hts.trans hnil)
      exact closed.finish
    · cases hi
      exact absurd (Option.some.inj next).symm inner
  · obtain ⟨r, hr, hx⟩ := Option.bind_eq_some_iff.mp next
    have hr' : g.rules[k]? = some r := hr
    rw [← Array.getElem?_toList, List.getElem?_eq_some_iff] at hx
    obtain ⟨hlt, hx⟩ := hx
    have hbody : r.body.toList = r.body.toList.take c ++ x :: ts.map Tree.symbol := by
      rw [hts, Item.advance, Item.awaited_given hr', ← hx, ← List.drop_eq_getElem_cons hlt,
        List.take_append_drop]
    exact closed.ahead_mem_followSet (Array.mem_of_getElem? hr') hbody grows (permits r hr')

/-! ## Completion -/

namespace SlrTable

/-- The stack is what the parser has after the first leaves of a derivation tree, with `y` the leaves
that are still to come. -/
structure Completes (E : Type) (g : Grammar) (t : SlrTable)
    (σ : List (StateId × Tree SymbolId RuleId)) (q : StateId) (y : List (Token SymbolId)) :
    Prop where
  derivation : ∃ tree, g.IsDerivationTree tree ∧ tree.leaves = stackLeaves σ ++ y
  reaches : t.parsing.Reaches (E := E) (stackMoves σ) (.over 0 [] (feed (stackLeaves σ ++ y)))
    (.over q σ (feed y))

/-- A stack with a valid item can be completed with any trees for what the item awaits. -/
theorem exists_completes (h : t.Describes g sets a) (closed : sets.Closed g)
    (productive : ∀ x, g.Reachable x → g.isNonterminal x = true → g.Productive x)
    {σ : List (StateId × Tree SymbolId RuleId)} {q : StateId} (linked : a.Linked σ q)
    (grows : ∀ e ∈ σ, e.2.Grows g) {i : Item} (valid : g.Valid (stackSymbols σ) i)
    {ts : List (Tree SymbolId RuleId)} (hts : ts.map Tree.symbol = i.awaited g)
    (htrees : ∀ u ∈ ts, u.Grows g) :
    ∃ z, (∀ l ∈ z, g.IsTerminal l.symbol) ∧ sets.Permits g z i.rule ∧
      Completes E g t σ q (Tree.leavesAll ts ++ z) := by
  generalize hγ : stackSymbols σ = γ at valid
  induction valid generalizing σ q ts with
  | start =>
      obtain rfl : σ = [] := List.map_eq_nil_iff.mp hγ
      cases linked
      have hawaited : Item.awaited g (Item.initial 0) = [g.start] := by
        rw [Item.awaited_of_next? (x := g.start) rfl (Grammar.start_ne_endOfInput g)]
        refine congrArg (g.start :: ·) (List.filter_eq_nil_iff.mpr fun y hy => ?_)
        obtain rfl : y = g.endOfInput := List.mem_singleton.mp hy
        simp
      obtain ⟨u, us, rfl, hu, hus⟩ := List.map_eq_cons_iff.mp (hts.trans hawaited)
      obtain rfl : us = [] := List.map_eq_nil_iff.mp hus
      refine ⟨[], nofun, rfl, ⟨u, ⟨hu, htrees u List.mem_cons_self⟩, ?_⟩, .refl _⟩
      simp [Tree.leavesAll, stackLeaves]
  | @predict γ i n q' valid awaits rule ih =>
      obtain ⟨k, r, rfl, hr, rfl⟩ := Grammar.mem_rulesOf.mp rule
      obtain ⟨next, hnon⟩ := Item.awaits?_eq_some_iff.mp awaits
      have inner := Grammar.ne_endOfInput_of_isNonterminal hnon
      -- the new rule becomes a tree, and what stands behind its head gets trees of its own
      obtain ⟨us, hus, husgrow⟩ := (valid.advance next inner).exists_trees productive
      have hnode : (Tree.node r.head (k + 1) ts).Grows g := by
        rw [Item.initial, Item.awaited_given hr, List.drop_zero] at hts
        exact Tree.grows_node (Grammar.given?_eq_some_iff.mpr ⟨k, r, rfl, hr, rfl, hts.symm⟩) htrees
      have hawaited : (Tree.node r.head (k + 1) ts :: us).map Tree.symbol = i.awaited g := by
        rw [Item.awaited_of_next? next inner, List.map_cons, hus]
        rfl
      have hgrow : ∀ u ∈ Tree.node r.head (k + 1) ts :: us, u.Grows g :=
        List.forall_mem_cons.mpr ⟨hnode, husgrow⟩
      obtain ⟨z, hz, permits, hcompletes⟩ := ih linked grows hawaited hgrow hγ
      refine ⟨Tree.leavesAll us ++ z, ?_, ?_, ?_⟩
      · exact List.forall_mem_append.mpr ⟨Tree.terminals_leavesAll husgrow, hz⟩
      · intro r' hr'
        obtain rfl : r = r' := Option.some.inj (hr.symm.trans hr')
        exact closed.ahead_of_permits valid next inner hus husgrow permits
      · rw [← List.append_assoc]
        rwa [Tree.leavesAll, Tree.leaves] at hcompletes
  | @advance γ i x valid next inner ih =>
      cases linked with
      | start => cases hγ
      | @push σ p u q linked edge =>
          obtain ⟨rfl, rfl⟩ := List.cons.inj hγ
          obtain ⟨hu, hbelow⟩ := List.forall_mem_cons.mp grows
          -- the tree on top is the first of those that the item below awaits
          have hawaited : (u :: ts).map Tree.symbol = i.awaited g := by
            rw [Item.awaited_of_next? next inner, List.map_cons, hts]
          have hgrow : ∀ v ∈ u :: ts, v.Grows g := List.forall_mem_cons.mpr ⟨hu, htrees⟩
          obtain ⟨z, hz, permits, ⟨tree, hderivation, hleaves⟩, hreaches⟩ := ih linked
            hbelow hawaited hgrow rfl
          have hterminals : ∀ l ∈ Tree.leavesAll ts ++ z, g.IsTerminal l.symbol :=
            List.forall_mem_append.mpr ⟨Tree.terminals_leavesAll htrees, hz⟩
          have hahead := closed.ahead_of_permits valid next inner hts htrees permits
          have hpush := (runs_of_grows (E := E) h closed hu).push h hu linked valid next hterminals
            hahead edge
          rw [Tree.leavesAll, List.append_assoc] at hleaves hreaches
          refine ⟨z, hz, permits, ⟨tree, hderivation, ?_⟩, ?_⟩
          · rw [hleaves, stackLeaves, List.append_assoc]
          · rw [stackLeaves, List.append_assoc, stackMoves]
            exact hreaches.trans hpush

/-- **No dead ends.** Each stack that is a path, with trees of the grammar, is had on the way to some
derivation tree. -/
theorem exists_completion (h : t.Describes g sets a) (closed : sets.Closed g)
    (productive : ∀ x, g.Reachable x → g.isNonterminal x = true → g.Productive x)
    {σ : List (StateId × Tree SymbolId RuleId)} {q : StateId} (linked : a.Linked σ q)
    (grows : ∀ e ∈ σ, e.2.Grows g) : ∃ y, Completes E g t σ q y := by
  obtain ⟨i, valid⟩ := linked.exists_valid h.serves
  obtain ⟨ts, hts, htrees⟩ := valid.exists_trees productive
  obtain ⟨z, -, -, hcompletes⟩ :=
    exists_completes (E := E) h closed productive linked grows valid hts htrees
  exact ⟨_, hcompletes⟩

end SlrTable

end ShiftReduce
