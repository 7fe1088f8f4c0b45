import ShiftReduce.Automaton.ItemSet

/-!
# Closures

`closure` completes a list of items by a search over left corners. What it finds is said here without
the search: the items of the list, and the initial items of all rules of a nonterminal that an item
awaits (`mem_closure_iff`). So labels can be reasoned about one prediction at a time.
-/

namespace ShiftReduce

variable {g : Grammar}

/-! ## Rules and awaited symbols -/

theorem Grammar.mem_ruleIds {q : RuleId} : q ∈ g.ruleIds ↔ ∃ i, q = i + 1 ∧ i < g.rules.size := by
  simp only [ruleIds, List.mem_map, List.mem_range]
  constructor
  · rintro ⟨i, hi, rfl⟩
    exact ⟨i, rfl, hi⟩
  · rintro ⟨i, rfl, hi⟩
    exact ⟨i, hi, rfl⟩

theorem Grammar.mem_rulesOf {q : RuleId} {n : SymbolId} :
    q ∈ g.rulesOf n ↔ ∃ i r, q = i + 1 ∧ g.rules[i]? = some r ∧ r.head = n := by
  rw [rulesOf, List.mem_filter, mem_ruleIds]
  constructor
  · rintro ⟨⟨i, rfl, hi⟩, h⟩
    rw [rule?, Array.getElem?_eq_getElem hi, Option.any_some, decide_eq_true_eq] at h
    exact ⟨i, _, rfl, Array.getElem?_eq_getElem hi, h⟩
  · rintro ⟨i, r, rfl, hr, rfl⟩
    refine ⟨⟨i, rfl, (Array.getElem?_eq_some_iff.mp hr).1⟩, ?_⟩
    rw [rule?, hr, Option.any_some, decide_eq_true_eq]

theorem Item.awaits?_eq_some_iff {i : Item} {n : SymbolId} :
    i.awaits? g = some n ↔ i.next? g = some n ∧ g.isNonterminal n = true := by
  rw [awaits?, Option.filter_eq_some_iff]

/-- The symbol behind the cursor, in the lists that derivations are made of. -/
theorem Item.next?_of_rule? {i : Item} {r : Rule} (h : g.rule? i.rule = some r) :
    i.next? g = r.body.toList[i.cursor]? := by
  rw [next?, Grammar.symbolAt?, h, Option.bind_some, Array.getElem?_toList]

theorem Grammar.mem_leftCorners {n m : SymbolId} :
    m ∈ g.leftCorners n ↔ ∃ q ∈ g.rulesOf n, (Item.initial q).awaits? g = some m :=
  List.mem_filterMap

/-! ## The search -/

/-- What the search has found when it ends: all that was listed, and with a nonterminal its left
corners. -/
theorem Grammar.leftReach_complete (seen todo : List SymbolId)
    (open_ : ∀ n ∈ seen, ∀ m ∈ g.leftCorners n, m ∈ seen ∨ m ∈ todo) :
    (∀ n ∈ seen, n ∈ g.leftReach seen todo) ∧
      (∀ n ∈ todo, g.isNonterminal n = true → n ∈ g.leftReach seen todo) ∧
      ∀ n ∈ g.leftReach seen todo, ∀ m ∈ g.leftCorners n, m ∈ g.leftReach seen todo := by
  have nonterminal : ∀ n m, m ∈ g.leftCorners n → g.isNonterminal m = true := by
    intro n m hm
    obtain ⟨q, -, hq⟩ := mem_leftCorners.mp hm
    exact (Item.awaits?_eq_some_iff.mp hq).2
  induction seen, todo using Grammar.leftReach.induct g with
  | case1 seen =>
      rw [leftReach]
      exact ⟨fun _ => id, nofun, fun n hn m hm => (open_ n hn m hm).resolve_right nofun⟩
  | case2 seen n todo h ih =>
      rw [leftReach, if_pos h]
      -- a symbol becomes seen at the moment that its left corners are listed
      obtain ⟨hseen, htodo, hcorners⟩ := ih (by
        intro k hk m hm
        rcases List.mem_cons.mp hk with rfl | hk
        · exact Or.inr (List.mem_append_left _ hm)
        · rcases open_ k hk m hm with hm | hm
          · exact Or.inl (List.mem_cons_of_mem _ hm)
          · rcases List.mem_cons.mp hm with rfl | hm
            · exact Or.inl List.mem_cons_self
            · exact Or.inr (List.mem_append_right _ hm))
      refine ⟨fun k hk => hseen k (List.mem_cons_of_mem _ hk), fun k hk hnon => ?_, hcorners⟩
      rcases List.mem_cons.mp hk with rfl | hk
      · exact hseen _ List.mem_cons_self
      · exact htodo k (List.mem_append_right _ hk) hnon
  | case3 seen n todo h ih =>
      rw [leftReach, if_neg h]
      have hdone : g.isNonterminal n = true → n ∈ seen := fun hnon =>
        Classical.byContradiction fun hnew => h ⟨hnew, hnon⟩
      obtain ⟨hseen, htodo, hcorners⟩ := ih (by
        intro k hk m hm
        rcases open_ k hk m hm with hm' | hm'
        · exact Or.inl hm'
        · rcases List.mem_cons.mp hm' with rfl | hm'
          · exact Or.inl (hdone (nonterminal k m hm))
          · exact Or.inr hm')
      refine ⟨hseen, fun k hk hnon => ?_, hcorners⟩
      rcases List.mem_cons.mp hk with rfl | hk
      · exact hseen _ (hdone hnon)
      · exact htodo k hk hnon

/-- The search finds nothing else: what holds of the list and passes to left corners holds of all
that is found. -/
theorem Grammar.leftReach_sound {P : SymbolId → Prop}
    (corner : ∀ n m, P n → m ∈ g.leftCorners n → P m) (seen todo : List SymbolId)
    (hseen : ∀ n ∈ seen, P n) (htodo : ∀ n ∈ todo, P n) :
    ∀ n ∈ g.leftReach seen todo, P n := by
  induction seen, todo using Grammar.leftReach.induct g with
  | case1 seen =>
      rw [leftReach]
      exact hseen
  | case2 seen n todo h ih =>
      rw [leftReach, if_pos h]
      have hn := htodo n List.mem_cons_self
      refine ih (fun k hk => ?_) fun k hk => ?_
      · rcases List.mem_cons.mp hk with rfl | hk
        · exact hn
        · exact hseen k hk
      · rcases List.mem_append.mp hk with hk | hk
        · exact corner n k hn hk
        · exact htodo k (List.mem_cons_of_mem _ hk)
  | case3 seen n todo h ih =>
      rw [leftReach, if_neg h]
      exact ih hseen fun k hk => htodo k (List.mem_cons_of_mem _ hk)

/-! ## Closure -/

/-- An item of the list, or the initial item of a rule that an item comes to await. -/
inductive Grammar.Closes (g : Grammar) (items : List Item) : Item → Prop
  | given {i} (h : i ∈ items) : Closes g items i
  | predict {i n q} (h : Closes g items i) (awaits : i.awaits? g = some n)
      (rule : q ∈ g.rulesOf n) : Closes g items (.initial q)

theorem mem_predicted {items : List Item} {i : Item} :
    i ∈ predicted g items ↔ ∃ n ∈ g.leftReach [] (items.filterMap (·.awaits? g)),
      ∃ q ∈ g.rulesOf n, i = .initial q := by
  simp only [predicted, List.mem_map, List.mem_filter]
  constructor
  · rintro ⟨q, ⟨hq, hreach⟩, rfl⟩
    obtain ⟨j, rfl, hj⟩ := Grammar.mem_ruleIds.mp hq
    rw [Grammar.rule?, Array.getElem?_eq_getElem hj, Option.any_some, decide_eq_true_eq] at hreach
    exact ⟨_, hreach, j + 1,
      Grammar.mem_rulesOf.mpr ⟨j, _, rfl, Array.getElem?_eq_getElem hj, rfl⟩, rfl⟩
  · rintro ⟨n, hn, q, hq, rfl⟩
    obtain ⟨j, r, rfl, hr, rfl⟩ := Grammar.mem_rulesOf.mp hq
    refine ⟨j + 1, ⟨Grammar.mem_ruleIds.mpr ⟨j, rfl, (Array.getElem?_eq_some_iff.mp hr).1⟩, ?_⟩, rfl⟩
    rw [Grammar.rule?, hr, Option.any_some, decide_eq_true_eq]
    exact hn

/-- **The closure is the least closed set.** -/
theorem mem_closure_iff {items : List Item} {i : Item} :
    i ∈ closure g items ↔ g.Closes items i := by
  obtain ⟨-, hlisted, hcorners⟩ := g.leftReach_complete [] (items.filterMap (·.awaits? g)) nofun
  rw [closure, OrderedSet.mem_union, OrderedSet.mem_ofList, OrderedSet.mem_ofList]
  constructor
  · have hlist : ∀ n ∈ items.filterMap (·.awaits? g),
        ∃ i, g.Closes items i ∧ i.awaits? g = some n := by
      intro n hn
      obtain ⟨i, hi, hn⟩ := List.mem_filterMap.mp hn
      exact ⟨i, .given hi, hn⟩
    have hcorner : ∀ n m, (∃ i, g.Closes items i ∧ i.awaits? g = some n) →
        m ∈ g.leftCorners n → ∃ i, g.Closes items i ∧ i.awaits? g = some m := by
      rintro n m ⟨i, hi, hn⟩ hm
      obtain ⟨q, hq, hm⟩ := Grammar.mem_leftCorners.mp hm
      exact ⟨.initial q, .predict hi hn hq, hm⟩
    have hawaited := g.leftReach_sound hcorner [] _ nofun hlist
    rintro (h | h)
    · exact .given h
    · obtain ⟨n, hn, q, hq, rfl⟩ := mem_predicted.mp h
      obtain ⟨i, hi, hawaits⟩ := hawaited n hn
      exact .predict hi hawaits hq
  · intro h
    induction h with
    | given h => exact Or.inl h
    | @predict i n q h awaits rule ih =>
        refine Or.inr (mem_predicted.mpr ⟨n, ?_, q, rule, rfl⟩)
        rcases ih with hi | hi
        · exact hlisted n (List.mem_filterMap.mpr ⟨i, hi, awaits⟩)
            (Item.awaits?_eq_some_iff.mp awaits).2
        · obtain ⟨m, hm, p, hp, rfl⟩ := mem_predicted.mp hi
          exact hcorners m hm n (Grammar.mem_leftCorners.mpr ⟨p, hp, awaits⟩)

/-! ## Goto -/

theorem mem_awaiting {label : ItemSet} {x : SymbolId} {i : Item} :
    i ∈ awaiting g label x ↔ i ∈ label ∧ i.next? g = some x := by
  rw [awaiting, List.mem_filter, OrderedSet.mem_toList, decide_eq_true_eq]

/-- Where `goto?` has an answer, it is `goto`. -/
theorem eq_goto_of_goto? {label target : ItemSet} {x : SymbolId}
    (h : goto? g label x = some target) : target = goto g label x := by
  rw [goto?, Option.map_eq_some_iff] at h
  obtain ⟨advanced, hadvanced, rfl⟩ := h
  rw [goto]
  generalize awaiting g label x = items at hadvanced ⊢
  suffices advanced = items.map Item.advance by rw [this]
  induction items generalizing advanced with
  | nil => simpa using hadvanced.symm
  | cons i items ih =>
      rw [List.mapM_cons] at hadvanced
      obtain ⟨j, hj, hadvanced⟩ := Option.bind_eq_some_iff.mp hadvanced
      obtain ⟨rest, hrest, hadvanced⟩ := Option.bind_eq_some_iff.mp hadvanced
      obtain rfl : j :: rest = advanced := Option.some.inj hadvanced
      rw [List.map_cons, ih rest hrest]
      rw [Item.advance?] at hj
      split at hj
      · rw [Option.some.inj hj]
      · cases hj

theorem mem_awaitedSymbols {label : ItemSet} {x : SymbolId} :
    x ∈ awaitedSymbols g label ↔ (∃ i ∈ label, i.next? g = some x) ∧ x ≠ g.endOfInput := by
  rw [awaitedSymbols, OrderedSet.mem_ofList, List.mem_filter, List.mem_filterMap,
    decide_eq_true_eq]
  rfl

end ShiftReduce
