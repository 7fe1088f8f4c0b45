import ShiftReduce.Automaton.Item

/-!
# Item sets

The label of a state is a set of items that holds, with an item that awaits a nonterminal, the
initial items of all rules of this nonterminal. `closure` completes a list of items in this way:
it first collects the nonterminals that can be awaited, by following what rules begin with
(`Grammar.leftReach`), and then adds their rules. `goto` moves the cursor of a label over a symbol.
-/

namespace ShiftReduce

abbrev ItemSet := OrderedSet Item

namespace Grammar

/-! ## Left corners -/

/-- The nonterminals that bodies of rules of `n` begin with. -/
def leftCorners (g : Grammar) (n : SymbolId) : List SymbolId :=
  (g.rulesOf n).filterMap fun r => (Item.initial r).awaits? g

theorem length_leftCorners_le (g : Grammar) (n : SymbolId) :
    (g.leftCorners n).length ≤ g.rules.size := by
  refine Nat.le_trans (List.length_filterMap_le _ _) ?_
  refine Nat.le_trans (List.length_filter_le _ _) ?_
  simp [ruleIds]

/-- How many symbols are not in the list. -/
def unseen (g : Grammar) (seen : List SymbolId) : Nat :=
  g.vocabulary.ids.countP fun x => x ∉ seen

theorem countP_not_mem_cons_lt {xs seen : List SymbolId} {n : SymbolId} (here : n ∈ xs)
    (new : n ∉ seen) : xs.countP (· ∉ n :: seen) < xs.countP (· ∉ seen) := by
  induction xs with
  | nil => simp at here
  | cons x xs ih =>
    have le : xs.countP (· ∉ n :: seen) ≤ xs.countP (· ∉ seen) :=
      List.countP_mono_left fun y _ hy => by
        simp only [List.mem_cons, not_or, decide_eq_true_eq] at hy ⊢
        exact hy.2
    rw [List.countP_cons, List.countP_cons]
    by_cases hx : x = n
    · subst hx
      rw [if_neg (by simp), if_pos (by simpa using new)]
      omega
    · have lt := ih ((List.mem_cons.1 here).resolve_left (Ne.symm hx))
      by_cases hs : x ∈ seen
      · rw [if_neg (by simp [hs]), if_neg (by simp [hs])]
        omega
      · rw [if_pos (by simp [hs, hx]), if_pos (by simp [hs])]
        omega

theorem unseen_cons_lt {g : Grammar} {seen : List SymbolId} {n : SymbolId} (new : n ∉ seen)
    (h : g.isNonterminal n = true) : g.unseen (n :: seen) < g.unseen seen := by
  refine countP_not_mem_cons_lt ?_ new
  rw [isNonterminal, Vocabulary.isNonterminal_iff] at h
  rw [Vocabulary.ids, List.mem_range, Vocabulary.size]
  cases hs : g.vocabulary.symbol? n with
  | none => simp [hs] at h
  | some s => exact (Array.getElem?_eq_some_iff.1 hs).1

/-- The nonterminals of `seen` and those that can be awaited once those of a list are: the list
itself, what their rules begin with, and so on. -/
def leftReach (g : Grammar) (seen : List SymbolId) : List SymbolId → List SymbolId
  | [] => seen
  | n :: todo =>
    if n ∉ seen ∧ g.isNonterminal n = true then
      g.leftReach (n :: seen) (g.leftCorners n ++ todo)
    else g.leftReach seen todo
termination_by todo => g.unseen seen * (g.rules.size + 1) + todo.length
decreasing_by
  · next h =>
    have new := Nat.mul_le_mul_right (g.rules.size + 1) (unseen_cons_lt h.1 h.2)
    have corners := g.length_leftCorners_le n
    simp only [List.length_append, List.length_cons, Nat.succ_mul] at new ⊢
    omega
  · simp

end Grammar

/-! ## Closure and goto -/

/-- The initial items of the rules of the nonterminals that a list of items can come to await. -/
def predicted (g : Grammar) (items : List Item) : List Item :=
  let reach := g.leftReach [] (items.filterMap (·.awaits? g))
  (g.ruleIds.filter fun r => (g.rule? r).any (·.head ∈ reach)).map Item.initial

/-- The label that grows from a list of items. -/
def closure (g : Grammar) (items : List Item) : ItemSet :=
  OrderedSet.ofList items ∪ OrderedSet.ofList (predicted g items)

/-- The items of a label that await a symbol. -/
def awaiting (g : Grammar) (label : ItemSet) (x : SymbolId) : List Item :=
  label.toList.filter fun i => i.next? g = some x

/-- The label behind a symbol; it is empty if no item awaits the symbol. -/
def goto (g : Grammar) (label : ItemSet) (x : SymbolId) : ItemSet :=
  closure g ((awaiting g label x).map Item.advance)

/-- The label behind a symbol, unless a cursor would leave its last place. -/
def goto? (g : Grammar) (label : ItemSet) (x : SymbolId) : Option ItemSet :=
  ((awaiting g label x).mapM Item.advance?).map (closure g)

/-- The symbols that a label awaits, without the end marker. -/
def awaitedSymbols (g : Grammar) (label : ItemSet) : OrderedSet SymbolId :=
  OrderedSet.ofList ((label.toList.filterMap (·.next? g)).filter (· ≠ g.endOfInput))

/-- Where no cursor is at its last place, `goto?` is `goto`. -/
theorem goto?_eq_some {g : Grammar} {label : ItemSet} {x : SymbolId}
    (h : ∀ i ∈ awaiting g label x, i.cursor < Item.maxCursor) :
    goto? g label x = some (goto g label x) := by
  rw [goto?, goto]
  generalize awaiting g label x = items at h
  have : items.mapM Item.advance? = some (items.map Item.advance) := by
    induction items with
    | nil => rfl
    | cons i items ih =>
      have here : i.advance? = some i.advance := if_pos (h i (by simp))
      have rest := ih fun j hj => h j (by simp [hj])
      simp [List.mapM_cons, here, rest]
  rw [this]
  rfl

end ShiftReduce
