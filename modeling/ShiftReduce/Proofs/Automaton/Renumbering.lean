import ShiftReduce.Proofs.Automaton.Overflow
import ShiftReduce.Proofs.Grammar.Permutation

/-!
# Automata of renumbered rules

Other numbers for the rules give other labels, and labels are kept in the order of their items. But what
a label awaits are symbols, and so the construction takes the same turns: a label is met for the first
time where its counterpart is, and gets the same number. What is built, and what it fails with, is the
same up to the numbers in the labels (`Renumbers.build_eq`).

The two runs are compared step by step. Where two results fail with the same error, or succeed with
values that belong together, they are `Alike`.
-/

namespace ShiftReduce

variable {g g' : Grammar} {ρ : Equiv.Perm RuleId}

/-! ## Labels with other numbers -/

def Item.renumber (ρ : RuleId → RuleId) (i : Item) : Item := { i with rule := ρ i.rule }

/-- The label whose items have new numbers for their rules. -/
def ItemSet.renumber (ρ : RuleId → RuleId) (label : ItemSet) : ItemSet :=
  OrderedSet.ofList (label.toList.map (Item.renumber ρ))

theorem Item.renumber_symm_renumber (i : Item) : (i.renumber ρ).renumber ρ.symm = i := by
  rw [renumber, renumber, ρ.symm_apply_apply]

theorem Item.renumber_renumber_symm (i : Item) : (i.renumber ρ.symm).renumber ρ = i :=
  renumber_symm_renumber (ρ := ρ.symm) i

namespace ItemSet

variable {label label' : ItemSet} {i : Item}

theorem mem_renumber {f : RuleId → RuleId} :
    i ∈ label.renumber f ↔ ∃ j ∈ label, j.renumber f = i := by
  rw [renumber, OrderedSet.mem_ofList, List.mem_map]
  rfl

theorem renumber_mem_renumber (h : i ∈ label) : i.renumber ρ ∈ label.renumber ρ :=
  mem_renumber.mpr ⟨i, h, rfl⟩

/-- A label is the counterpart of another if items go from each to the other. -/
theorem eq_renumber (there : ∀ i ∈ label, i.renumber ρ ∈ label')
    (back : ∀ i ∈ label', i.renumber ρ.symm ∈ label) : label' = label.renumber ρ := by
  apply OrderedSet.ext
  intro i
  constructor
  · intro hi
    exact mem_renumber.mpr ⟨_, back i hi, i.renumber_renumber_symm⟩
  · intro hi
    obtain ⟨j, hj, rfl⟩ := mem_renumber.mp hi
    exact there j hj

theorem renumber_symm_renumber (label : ItemSet) : (label.renumber ρ).renumber ρ.symm = label := by
  symm
  apply eq_renumber
  · intro i hi
    obtain ⟨j, hj, rfl⟩ := mem_renumber.mp hi
    rwa [j.renumber_symm_renumber]
  · intro i hi
    exact renumber_mem_renumber hi

theorem renumber_injective (ρ : Equiv.Perm RuleId) : Function.Injective (renumber ρ) :=
  Function.LeftInverse.injective renumber_symm_renumber

end ItemSet

/-! ## What labels lead to -/

namespace Grammar.Renumbers

theorem next?_eq (h : g.Renumbers g' ρ) (i : Item) : (i.renumber ρ).next? g' = i.next? g := by
  rw [Item.next?, Item.next?, symbolAt?, symbolAt?, Item.renumber, h.rule?]

theorem awaits?_eq (h : g.Renumbers g' ρ) (i : Item) : (i.renumber ρ).awaits? g' = i.awaits? g := by
  rw [Item.awaits?, Item.awaits?, h.next?_eq, funext h.toPermutes.isNonterminal_eq]

theorem mem_rulesOf (h : g.Renumbers g' ρ) {q : RuleId} {n : SymbolId} (hq : q ∈ g.rulesOf n) :
    ρ q ∈ g'.rulesOf n := by
  obtain ⟨k, r, rfl, hr, hhead⟩ := Grammar.mem_rulesOf.mp hq
  -- a given rule does not become the accepting one
  have hzero : ρ (k + 1) ≠ 0 := by
    intro heq
    exact absurd (ρ.injective (heq.trans h.zero.symm)) (Nat.succ_ne_zero k)
  obtain ⟨k', hk'⟩ := Nat.exists_eq_succ_of_ne_zero hzero
  have hr' : g'.rules[k']? = some r := by
    have hrule := h.rule? (k + 1)
    rw [hk'] at hrule
    exact hrule.trans hr
  exact Grammar.mem_rulesOf.mpr ⟨k', r, hk', hr', hhead⟩

theorem closes (h : g.Renumbers g' ρ) {items items' : List Item}
    (hitems : ∀ i ∈ items, i.renumber ρ ∈ items') {i : Item} (hi : g.Closes items i) :
    g'.Closes items' (i.renumber ρ) := by
  induction hi with
  | given hi => exact .given (hitems _ hi)
  | predict _ awaits rule ih =>
      rw [← h.awaits?_eq] at awaits
      exact .predict ih awaits (h.mem_rulesOf rule)

theorem startLabel_eq (h : g.Renumbers g' ρ) :
    Automaton.startLabel g' = (Automaton.startLabel g).renumber ρ := by
  have hstart : ∀ {g g' : Grammar} {ρ : Equiv.Perm RuleId}, g.Renumbers g' ρ →
      ∀ i ∈ Automaton.startLabel g, i.renumber ρ ∈ Automaton.startLabel g' := by
    intro g g' ρ h i hi
    refine mem_closure_iff.mpr (h.closes ?_ (mem_closure_iff.mp hi))
    intro j hj
    obtain rfl := List.mem_singleton.mp hj
    exact List.mem_singleton.mpr (congrArg (Item.mk · 0) h.zero)
  exact ItemSet.eq_renumber (hstart h) (hstart h.symm)

theorem mem_goto (h : g.Renumbers g' ρ) {label : ItemSet} {x : SymbolId} {i : Item}
    (hi : i ∈ goto g label x) : i.renumber ρ ∈ goto g' (label.renumber ρ) x := by
  refine mem_closure_iff.mpr (h.closes ?_ (mem_closure_iff.mp hi))
  intro j hj
  obtain ⟨k, hk, rfl⟩ := List.mem_map.mp hj
  obtain ⟨hmem, next⟩ := mem_awaiting.mp hk
  rw [← h.next?_eq] at next
  exact List.mem_map.mpr
    ⟨k.renumber ρ, mem_awaiting.mpr ⟨ItemSet.renumber_mem_renumber hmem, next⟩, rfl⟩

theorem goto_eq (h : g.Renumbers g' ρ) (label : ItemSet) (x : SymbolId) :
    goto g' (label.renumber ρ) x = (goto g label x).renumber ρ := by
  refine ItemSet.eq_renumber (fun _ => h.mem_goto) fun i hi => ?_
  have hback := h.symm.mem_goto hi
  rwa [ItemSet.renumber_symm_renumber] at hback

theorem goto?_eq_none (h : g.Renumbers g' ρ) {label : ItemSet} {x : SymbolId}
    (hnone : goto? g label x = none) : goto? g' (label.renumber ρ) x = none := by
  obtain ⟨i, hi, next, last⟩ := goto?_eq_none_iff.mp hnone
  rw [← h.next?_eq] at next
  exact goto?_eq_none_iff.mpr ⟨i.renumber ρ, ItemSet.renumber_mem_renumber hi, next, last⟩

theorem goto?_eq (h : g.Renumbers g' ρ) (label : ItemSet) (x : SymbolId) :
    goto? g' (label.renumber ρ) x = (goto? g label x).map (ItemSet.renumber ρ) := by
  cases hgoto : goto? g label x with
  | none => exact h.goto?_eq_none hgoto
  | some target =>
      cases hgoto' : goto? g' (label.renumber ρ) x with
      | none =>
          have hback := h.symm.goto?_eq_none hgoto'
          rw [ItemSet.renumber_symm_renumber, hgoto] at hback
          cases hback
      | some target' =>
          rw [eq_goto_of_goto? hgoto, eq_goto_of_goto? hgoto', h.goto_eq, Option.map_some]

theorem awaitedSymbols_eq (h : g.Renumbers g' ρ) (label : ItemSet) :
    awaitedSymbols g' (label.renumber ρ) = awaitedSymbols g label := by
  apply OrderedSet.ext
  intro x
  rw [mem_awaitedSymbols, mem_awaitedSymbols, h.toPermutes.endOfInput_eq]
  refine and_congr_left fun _ => ?_
  constructor
  · rintro ⟨i, hi, next⟩
    obtain ⟨j, hj, rfl⟩ := ItemSet.mem_renumber.mp hi
    rw [h.next?_eq] at next
    exact ⟨j, hj, next⟩
  · rintro ⟨i, hi, next⟩
    rw [← h.next?_eq] at next
    exact ⟨i.renumber ρ, ItemSet.renumber_mem_renumber hi, next⟩

end Grammar.Renumbers

/-! ## Two constructions side by side -/

/-- Both results are the same error, or both are values and these belong together. -/
inductive Alike {ε α β : Type} (related : α → β → Prop) : Except ε α → Except ε β → Prop
  | error (e : ε) : Alike related (.error e) (.error e)
  | ok {a : α} {b : β} (h : related a b) : Alike related (.ok a) (.ok b)

/-- The labels of the one registry are, under the same numbers, the counterparts of those of the
other. -/
def Registry.Mirrors (ρ : Equiv.Perm RuleId) (r r' : Registry) : Prop :=
  r'.labels = r.labels.map (ItemSet.renumber ρ)

section

variable {r r' : Registry}

theorem Registry.Mirrors.size_eq (h : r.Mirrors ρ r') : r'.labels.size = r.labels.size := by
  rw [h, Array.size_map]

/-- A label and its counterpart are known under the same number, if at all. -/
theorem Registry.Mirrors.numbers_eq (h : r.Mirrors ρ r') (l : ItemSet) :
    r'.numbers[l.renumber ρ]? = r.numbers[l]? := by
  apply Option.ext
  intro i
  rw [r'.numbers_iff, r.numbers_iff, h, Array.getElem?_map, Option.map_eq_some_iff]
  constructor
  · rintro ⟨l', hl', heq⟩
    obtain rfl := ItemSet.renumber_injective ρ heq
    exact hl'
  · intro hl
    exact ⟨l, hl, rfl⟩

theorem Registry.Mirrors.number (h : r.Mirrors ρ r') (l : ItemSet) :
    Alike (fun a b => b.1 = a.1 ∧ a.2.Mirrors ρ b.2) (r.number l) (r'.number (l.renumber ρ)) := by
  have hnumbers := h.numbers_eq l
  unfold Registry.number
  split
  · next i hi =>
    split
    · next j hj =>
      rw [hj, hi] at hnumbers
      exact .ok ⟨Option.some.inj hnumbers, h⟩
    · next hj =>
      rw [hj, hi] at hnumbers
      cases hnumbers
  · next hi =>
    split
    · next j hj =>
      rw [hj, hi] at hnumbers
      cases hnumbers
    · dsimp only
      split
      · next room =>
        have room' : r'.labels.size < maxStates := h.size_eq ▸ room
        rw [dif_pos room']
        refine .ok ⟨h.size_eq, ?_⟩
        show r'.labels.push (l.renumber ρ) = (r.labels.push l).map (ItemSet.renumber ρ)
        rw [Array.map_push, h]
      · next full =>
        have full' : ¬ r'.labels.size < maxStates := h.size_eq ▸ full
        rw [dif_neg full']
        exact .error _

/-- A row of transitions comes out the same. -/
theorem Registry.Mirrors.connect (h : g.Renumbers g' ρ) (hr : r.Mirrors ρ r') (state : StateId)
    (label : ItemSet) (row : Row StateId) (xs : List SymbolId) :
    Alike (fun a b => a.1.Mirrors ρ b.1 ∧ b.2 = a.2) (connect g state label r row xs)
      (connect g' state (label.renumber ρ) r' row xs) := by
  induction xs generalizing r r' row with
  | nil => exact .ok ⟨hr, rfl⟩
  | cons x rest ih =>
      rw [ShiftReduce.connect, ShiftReduce.connect, h.goto?_eq]
      cases goto? g label x with
      | none => exact .error _
      | some target =>
          have hnumber := hr.number target
          simp only [Option.map_some]
          generalize r.number target = answer at hnumber ⊢
          generalize r'.number (target.renumber ρ) = answer' at hnumber ⊢
          cases hnumber with
          | error e => exact .error e
          | @ok numbered numbered' hnumbered =>
              obtain ⟨next, r₁⟩ := numbered
              obtain ⟨_, r₁'⟩ := numbered'
              obtain ⟨hnext, hr₁⟩ := hnumbered
              simp only at hnext hr₁ ⊢
              rw [hnext]
              cases row.enter x next with
              | error old =>
                  dsimp only
                  split
                  · exact ih hr₁ row
                  · exact .error _
              | ok row₁ => exact ih hr₁ row₁

theorem Registry.Mirrors.getElem_eq (h : r.Mirrors ρ r') {i : Nat} (hi : i < r.labels.size)
    (hi' : i < r'.labels.size) : r'.labels[i] = r.labels[i].renumber ρ := by
  have hget := congrArg (·[i]?) h
  simp only [Array.getElem?_map, Array.getElem?_eq_getElem hi, Array.getElem?_eq_getElem hi'] at hget
  exact Option.some.inj hget

end

/-- All rows come out the same. -/
theorem Registry.Mirrors.explore {r r' : Registry} (h : g.Renumbers g' ρ) (hr : r.Mirrors ρ r')
    (rows : Array (Row StateId)) :
    Alike (fun a b => a.1.Mirrors ρ b.1 ∧ b.2 = a.2) (explore g r rows) (explore g' r' rows) := by
  rw [ShiftReduce.explore, ShiftReduce.explore]
  by_cases hlt : rows.size < r.labels.size
  · have hlt' : rows.size < r'.labels.size := hr.size_eq ▸ hlt
    rw [dif_pos hlt, dif_pos hlt']
    dsimp only
    rw [hr.getElem_eq hlt hlt', h.awaitedSymbols_eq]
    have hconnect := hr.connect h rows.size r.labels[rows.size] {}
      (awaitedSymbols g r.labels[rows.size]).toList
    generalize ShiftReduce.connect g rows.size _ r {} _ = answer at hconnect ⊢
    generalize ShiftReduce.connect g' rows.size _ r' {} _ = answer' at hconnect ⊢
    cases hconnect with
    | error e => exact .error e
    | @ok connected connected' hconnected =>
        obtain ⟨r₁, row⟩ := connected
        obtain ⟨r₁', _⟩ := connected'
        obtain ⟨hr₁, hrow⟩ := hconnected
        simp only at hr₁ hrow ⊢
        rw [hrow]
        exact hr₁.explore h (rows.push row)
  · have hge' : ¬ rows.size < r'.labels.size := hr.size_eq ▸ hlt
    rw [dif_neg hlt, dif_neg hge']
    exact .ok ⟨hr, rfl⟩
termination_by maxStates - rows.size
decreasing_by
  have := r.size_le
  rw [Array.size_push]
  omega

/-! ## The automaton -/

namespace Automaton

/-- The automaton with new numbers for the rules in its labels. -/
def renumber (ρ : RuleId → RuleId) (a : Automaton) : Automaton :=
  ⟨a.states.map fun s => { s with label := s.label.renumber ρ }⟩

theorem size_renumber (ρ : RuleId → RuleId) (a : Automaton) : (a.renumber ρ).size = a.size :=
  Array.size_map

theorem state?_renumber (ρ : RuleId → RuleId) (a : Automaton) (i : StateId) :
    (a.renumber ρ).state? i =
      (a.state? i).map fun s => { s with label := s.label.renumber ρ } :=
  Array.getElem?_map

theorem label?_renumber (ρ : RuleId → RuleId) (a : Automaton) (i : StateId) :
    (a.renumber ρ).label? i = (a.label? i).map (ItemSet.renumber ρ) := by
  rw [label?, label?, state?_renumber, Option.map_map, Option.map_map]
  rfl

theorem transition?_renumber (ρ : RuleId → RuleId) (a : Automaton) (i : StateId) (x : SymbolId) :
    (a.renumber ρ).transition? i x = a.transition? i x := by
  rw [transition?, transition?, state?_renumber, Option.bind_map]
  rfl

theorem renumber_symm_renumber (a : Automaton) : (a.renumber ρ).renumber ρ.symm = a := by
  rw [renumber, renumber, Array.map_map]
  have hstate : ((fun s : State => { s with label := s.label.renumber ρ.symm }) ∘
      fun s => { s with label := s.label.renumber ρ }) = id := by
    funext s
    rw [Function.comp_apply, ItemSet.renumber_symm_renumber, id]
  rw [hstate, Array.map_id]

end Automaton

theorem Registry.mirrors_empty (ρ : Equiv.Perm RuleId) : ({} : Registry).Mirrors ρ {} :=
  Array.map_empty.symm

/-- **The construction does not look at the numbers of rules.** It builds the same automaton up to these
numbers, or fails with the same error. -/
theorem Grammar.Renumbers.build_eq (h : g.Renumbers g' ρ) :
    Automaton.build g' = (Automaton.build g).map (Automaton.renumber ρ) := by
  have hnumber := (Registry.mirrors_empty ρ).number (Automaton.startLabel g)
  unfold Automaton.build
  rw [h.startLabel_eq]
  generalize ({} : Registry).number (Automaton.startLabel g) = answer at hnumber ⊢
  generalize ({} : Registry).number ((Automaton.startLabel g).renumber ρ) = answer' at hnumber ⊢
  cases hnumber with
  | error e => rfl
  | @ok numbered numbered' hnumbered =>
      obtain ⟨i, r⟩ := numbered
      obtain ⟨i', r'⟩ := numbered'
      obtain ⟨-, hr⟩ := hnumbered
      have hexplore := hr.explore h #[]
      dsimp only
      generalize explore g r #[] = result at hexplore ⊢
      generalize explore g' r' #[] = result' at hexplore ⊢
      cases hexplore with
      | error e => rfl
      | @ok explored explored' hexplored =>
          obtain ⟨r₁, rows⟩ := explored
          obtain ⟨r₁', _⟩ := explored'
          obtain ⟨hr₁, hrows⟩ := hexplored
          simp only at hr₁ hrows
          rw [hrows]
          have hstates : r₁'.labels.zipWith State.mk rows =
              (r₁.labels.zipWith State.mk rows).map
                fun s => { s with label := s.label.renumber ρ } := by
            rw [hr₁, Array.map_zipWith, Array.zipWith_map_left]
          exact congrArg (fun states => Except.ok (Automaton.mk states)) hstates

end ShiftReduce
