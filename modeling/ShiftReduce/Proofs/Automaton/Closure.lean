import Mathlib.Data.Finset.Card
import Mathlib.Order.Bounds.Basic
import ShiftReduce.Proofs.Automaton.ItemSet

/-!
# Closure as an operator on sets of items

A set of items is closed if it holds, with an item that awaits a nonterminal, the initial items of all
rules of this nonterminal (`Grammar.IsClosed`). The closure of a list of items is the least closed set
that holds the list. So neither the order of the list nor the number of times that an item is in it
matters, a closure is its own closure, and the closure of two lists is the union of their closures
(`closure_laws`).

The closure can be found item by item as well, with a stack of the items that have not been looked at
(`Grammar.search`). An item comes onto the stack when it is found and not before, so each is looked at
once, those of the list included; and the search ends, since there are as many initial items as rules.
-/

namespace ShiftReduce

variable {g : Grammar}

/-- With an item that awaits a nonterminal, the set has the initial items of all its rules. -/
def Grammar.IsClosed (g : Grammar) (K : Set Item) : Prop :=
  ∀ i ∈ K, ∀ n, i.awaits? g = some n → ∀ q ∈ g.rulesOf n, Item.initial q ∈ K

/-! ## Item by item -/

namespace Grammar

/-- The initial items that an item calls for and that are not in the label. -/
def missing (g : Grammar) (label : ItemSet) (i : Item) : List Item :=
  (((i.awaits? g).elim [] g.rulesOf).map Item.initial).filter (· ∉ label)

theorem mem_missing {label : ItemSet} {i j : Item} :
    j ∈ g.missing label i ↔
      (∃ n, i.awaits? g = some n ∧ ∃ q ∈ g.rulesOf n, j = .initial q) ∧ j ∉ label := by
  rw [missing, List.mem_filter, List.mem_map, decide_eq_true_eq]
  cases i.awaits? g with
  | none => simp
  | some n => simp [eq_comm]

theorem missing_eq_nil_iff {label : ItemSet} {i : Item} :
    g.missing label i = [] ↔
      ∀ n, i.awaits? g = some n → ∀ q ∈ g.rulesOf n, Item.initial q ∈ label := by
  rw [List.eq_nil_iff_forall_not_mem]
  constructor
  · intro h n awaits q rule
    by_contra hnew
    exact h _ (mem_missing.mpr ⟨⟨n, awaits, q, rule, rfl⟩, hnew⟩)
  · intro h j hj
    obtain ⟨⟨n, awaits, q, rule, rfl⟩, hnew⟩ := mem_missing.mp hj
    exact hnew (h n awaits q rule)

/-- Once it is looked at, an item misses nothing. -/
theorem missing_union_missing (label : ItemSet) (i : Item) :
    g.missing (label ∪ OrderedSet.ofList (g.missing label i)) i = [] := by
  rw [missing_eq_nil_iff]
  intro n awaits q rule
  rw [OrderedSet.mem_union, OrderedSet.mem_ofList, mem_missing]
  by_cases h : Item.initial q ∈ label
  · exact Or.inl h
  · exact Or.inr ⟨⟨n, awaits, q, rule, rfl⟩, h⟩

/-- The rules whose initial items are not in the label. -/
def unpredicted (g : Grammar) (label : ItemSet) : Finset RuleId :=
  g.ruleIds.toFinset.filter fun q => Item.initial q ∉ label

theorem mem_unpredicted {label : ItemSet} {q : RuleId} :
    q ∈ g.unpredicted label ↔ q ∈ g.ruleIds ∧ Item.initial q ∉ label := by
  rw [unpredicted, Finset.mem_filter, List.mem_toFinset]

theorem unpredicted_union_subset (label label' : ItemSet) :
    g.unpredicted (label ∪ label') ⊆ g.unpredicted label := by
  intro q hq
  rw [mem_unpredicted] at hq ⊢
  refine ⟨hq.1, fun hmem => ?_⟩
  exact hq.2 (OrderedSet.mem_union.mpr (Or.inl hmem))

theorem card_unpredicted_lt {label : ItemSet} {i : Item} (h : g.missing label i ≠ []) :
    (g.unpredicted (label ∪ OrderedSet.ofList (g.missing label i))).card <
      (g.unpredicted label).card := by
  obtain ⟨j, hj⟩ := List.exists_mem_of_ne_nil _ h
  obtain ⟨⟨n, -, q, hq, rfl⟩, hnew⟩ := mem_missing.mp hj
  apply Finset.card_lt_card
  refine (Finset.ssubset_iff_of_subset (unpredicted_union_subset _ _)).mpr ⟨q, ?_, ?_⟩
  · exact mem_unpredicted.mpr ⟨List.mem_of_mem_filter hq, hnew⟩
  · intro hq'
    apply (mem_unpredicted.mp hq').2
    exact OrderedSet.mem_union.mpr (Or.inr (OrderedSet.mem_ofList.mpr hj))

/-- Look at the items of a stack, and add to the label and to the stack what they call for. -/
def expand (g : Grammar) (label : ItemSet) : List Item → ItemSet
  | [] => label
  | i :: pending =>
    g.expand (label ∪ OrderedSet.ofList (g.missing label i))
      ((g.missing label i).reverse ++ pending)
termination_by pending => ((g.unpredicted label).card, pending.length)
decreasing_by
  by_cases h : g.missing label i = []
  · -- the item calls for nothing new: the label stays and the stack is shorter
    have hle := Finset.card_le_card
      (unpredicted_union_subset (g := g) label (OrderedSet.ofList (g.missing label i)))
    rcases hle.lt_or_eq with hlt | heq
    · exact Prod.Lex.left _ _ hlt
    · rw [heq]
      apply Prod.Lex.right
      simp [h]
  · exact Prod.Lex.left _ _ (card_unpredicted_lt h)

/-- The label that is found from a list of items with a stack: at first all of them are on it. -/
def search (g : Grammar) (items : List Item) : ItemSet :=
  g.expand (OrderedSet.ofList items) (OrderedSet.ofList items).toList.reverse

/-- Where each item of the label is on the stack or has what it calls for in the label, the search ends
with a closed set. -/
theorem expand_closed (label : ItemSet) (pending : List Item)
    (looked : ∀ i ∈ label, i ∈ pending ∨ g.missing label i = []) :
    (∀ i ∈ label, i ∈ g.expand label pending) ∧ g.IsClosed {i | i ∈ g.expand label pending} := by
  induction label, pending using Grammar.expand.induct g with
  | case1 label =>
      rw [expand]
      exact ⟨fun _ => id, fun i hi => missing_eq_nil_iff.mp ((looked i hi).resolve_left nofun)⟩
  | case2 label i pending ih =>
      rw [expand]
      have hkept : ∀ j ∈ label, j ∈ label ∪ OrderedSet.ofList (g.missing label i) := fun j hj =>
        OrderedSet.mem_union.mpr (Or.inl hj)
      obtain ⟨hgrown, hclosed⟩ := ih (by
        intro j hj
        rcases OrderedSet.mem_union.mp hj with hj | hj
        · rcases looked j hj with hpending | hdone
          · rcases List.mem_cons.mp hpending with rfl | hpending
            · exact Or.inr (missing_union_missing label j)
            · exact Or.inl (List.mem_append_right _ hpending)
          · right
            rw [missing_eq_nil_iff] at hdone ⊢
            exact fun n awaits q rule => hkept _ (hdone n awaits q rule)
        · left
          exact List.mem_append_left _ (List.mem_reverse.mpr (OrderedSet.mem_ofList.mp hj)))
      exact ⟨fun j hj => hgrown j (hkept j hj), hclosed⟩

/-- The search stays in each closed set that it starts in. -/
theorem expand_subset {K : Set Item} (hK : g.IsClosed K) (label : ItemSet) (pending : List Item)
    (hlabel : ∀ i ∈ label, i ∈ K) (hpending : ∀ i ∈ pending, i ∈ K) :
    ∀ i ∈ g.expand label pending, i ∈ K := by
  induction label, pending using Grammar.expand.induct g with
  | case1 label =>
      rw [expand]
      exact hlabel
  | case2 label i pending ih =>
      rw [expand]
      have hmissing : ∀ j ∈ g.missing label i, j ∈ K := by
        intro j hj
        obtain ⟨⟨n, awaits, q, rule, rfl⟩, -⟩ := mem_missing.mp hj
        exact hK i (hpending i List.mem_cons_self) n awaits q rule
      apply ih
      · intro j hj
        rcases OrderedSet.mem_union.mp hj with hj | hj
        · exact hlabel j hj
        · exact hmissing j (OrderedSet.mem_ofList.mp hj)
      · intro j hj
        rcases List.mem_append.mp hj with hj | hj
        · exact hmissing j (List.mem_reverse.mp hj)
        · exact hpending j (List.mem_cons_of_mem _ hj)

/-- What the search finds is the least closed set that holds the list. -/
theorem isLeast_search (items : List Item) :
    IsLeast {K : Set Item | (∀ i ∈ items, i ∈ K) ∧ g.IsClosed K} {i | i ∈ g.search items} := by
  obtain ⟨hgrown, hclosed⟩ := g.expand_closed (OrderedSet.ofList items)
    (OrderedSet.ofList items).toList.reverse
    fun i hi => Or.inl (List.mem_reverse.mpr (OrderedSet.mem_toList.mpr hi))
  constructor
  · exact ⟨fun i hi => hgrown i (OrderedSet.mem_ofList.mpr hi), hclosed⟩
  · rintro K ⟨hitems, hK⟩
    refine expand_subset hK _ _ (fun i hi => ?_) fun i hi => ?_
    · exact hitems i (OrderedSet.mem_ofList.mp hi)
    · exact hitems i (OrderedSet.mem_ofList.mp (OrderedSet.mem_toList.mp (List.mem_reverse.mp hi)))

end Grammar

/-! ## The closure -/

theorem isLeast_closure (items : List Item) :
    IsLeast {K : Set Item | (∀ i ∈ items, i ∈ K) ∧ g.IsClosed K} {i | i ∈ closure g items} := by
  constructor
  · constructor
    · exact fun i hi => mem_closure_iff.mpr (.given hi)
    · intro i hi n awaits q rule
      exact mem_closure_iff.mpr (.predict (mem_closure_iff.mp hi) awaits rule)
  · rintro K ⟨hitems, hK⟩ i hi
    induction mem_closure_iff.mp hi with
    | given h => exact hitems _ h
    | predict h awaits rule ih => exact hK _ (ih (mem_closure_iff.mpr h)) _ awaits _ rule

/-- The two searches find the same label. -/
theorem search_eq_closure (items : List Item) : g.search items = closure g items := by
  apply OrderedSet.ext
  exact Set.ext_iff.mp ((g.isLeast_search items).unique (isLeast_closure items))

theorem mem_closure_of_mem {items : List Item} {i : Item} (h : i ∈ items) : i ∈ closure g items :=
  (isLeast_closure items).1.1 i h

theorem isClosed_closure (items : List Item) : g.IsClosed {i | i ∈ closure g items} :=
  (isLeast_closure items).1.2

theorem closure_subset {items : List Item} {K : Set Item} (hitems : ∀ i ∈ items, i ∈ K)
    (hK : g.IsClosed K) : ∀ i ∈ closure g items, i ∈ K :=
  (isLeast_closure items).2 ⟨hitems, hK⟩

theorem closure_mono {items items' : List Item} (h : ∀ i ∈ items, i ∈ items') :
    ∀ i ∈ closure g items, i ∈ closure g items' :=
  closure_subset (fun i hi => mem_closure_of_mem (h i hi)) (isClosed_closure items')

theorem closure_eq_of_mem_iff {items items' : List Item} (h : ∀ i, i ∈ items ↔ i ∈ items') :
    closure g items = closure g items' := by
  apply OrderedSet.ext
  intro i
  constructor
  · exact closure_mono (fun j => (h j).mp) i
  · exact closure_mono (fun j => (h j).mpr) i

theorem closure_closure (items : List Item) :
    closure g (closure g items).toList = closure g items := by
  apply OrderedSet.ext
  intro i
  constructor
  · exact closure_subset (fun j => OrderedSet.mem_toList.mp) (isClosed_closure items) i
  · intro hi
    exact mem_closure_of_mem (OrderedSet.mem_toList.mpr hi)

/-- A union of closed sets is closed: what is called for is so by one item. -/
theorem Grammar.IsClosed.union {K K' : Set Item} (hK : g.IsClosed K) (hK' : g.IsClosed K') :
    g.IsClosed (K ∪ K') := by
  rintro i (hi | hi) n awaits q rule
  · exact Or.inl (hK i hi n awaits q rule)
  · exact Or.inr (hK' i hi n awaits q rule)

theorem closure_append (items items' : List Item) :
    closure g (items ++ items') = closure g items ∪ closure g items' := by
  apply OrderedSet.ext
  intro i
  rw [OrderedSet.mem_union]
  constructor
  · apply closure_subset (K := {i | i ∈ closure g items} ∪ {i | i ∈ closure g items'})
    · intro j hj
      rcases List.mem_append.mp hj with hj | hj
      · exact Or.inl (mem_closure_of_mem hj)
      · exact Or.inr (mem_closure_of_mem hj)
    · exact (isClosed_closure items).union (isClosed_closure items')
  · rintro (hi | hi)
    · exact closure_mono (fun j => List.mem_append_left _) i hi
    · exact closure_mono (fun j => List.mem_append_right _) i hi

/-- **The closure is the least closed set, and found with a stack.** So it depends on the set of the
items only, is its own closure, and distributes over union. -/
theorem closure_laws (g : Grammar) :
    (∀ items, IsLeast {K : Set Item | (∀ i ∈ items, i ∈ K) ∧ g.IsClosed K}
      {i | i ∈ closure g items}) ∧
    (∀ items, g.search items = closure g items) ∧
    (∀ items items' : List Item, (∀ i, i ∈ items ↔ i ∈ items') →
      closure g items = closure g items') ∧
    (∀ items, closure g (closure g items).toList = closure g items) ∧
    ∀ items items', closure g (items ++ items') = closure g items ∪ closure g items' := by
  refine ⟨isLeast_closure, search_eq_closure, ?_, closure_closure, closure_append⟩
  intro items items' h
  exact closure_eq_of_mem_iff h

end ShiftReduce
