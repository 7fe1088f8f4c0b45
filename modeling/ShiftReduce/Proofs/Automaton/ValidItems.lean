import ShiftReduce.Proofs.Automaton.Construction
import ShiftReduce.Proofs.Grammar.Derivation
import ShiftReduce.Proofs.Parser.Moves

/-!
# Valid items

Which items a parser may have in mind is a matter of the symbols it has on its stack, and is said here
by the grammar alone (`Grammar.Valid`). The automaton computes it: a state at the end of a path that
spells these symbols has the valid items as its label (`Automaton.Linked.mem_label_iff`). Below this
module nothing needs to look into labels.
-/

namespace ShiftReduce

variable {g : Grammar}

/-! ## Validity -/

/-- The item is valid behind the symbols on a stack, the last one first. -/
inductive Grammar.Valid (g : Grammar) : List SymbolId → Item → Prop
  | start : Valid g [] (.initial 0)
  | predict {γ i n q} (h : Valid g γ i) (awaits : i.awaits? g = some n)
      (rule : q ∈ g.rulesOf n) : Valid g γ (.initial q)
  | advance {γ i x} (h : Valid g γ i) (next : i.next? g = some x) (inner : x ≠ g.endOfInput) :
      Valid g (x :: γ) i.advance

namespace Grammar

/-- The body of a rule with a reachable head is reachable, and so is the start symbol. -/
theorem reachable_of_mem_body {q : RuleId} {r : Rule} (hr : g.rule? q = some r)
    (head : ∀ {k}, q = k + 1 → g.Reachable r.head) {x : SymbolId} (hx : x ∈ r.body)
    (inner : x ≠ g.endOfInput) : g.Reachable x := by
  rcases q with _ | k
  · obtain rfl : g.acceptRule = r := Option.some.inj hr
    have hmem : x ∈ [g.start, g.endOfInput] := Array.mem_toList_iff.mpr hx
    rw [List.mem_cons, List.mem_singleton] at hmem
    rcases hmem with rfl | rfl
    · exact reachable_start g
    · exact absurd rfl inner
  · exact (head rfl).of_mem_body (Array.mem_of_getElem? hr) hx

theorem isTerminal_or_isNonterminal_of_mem_body {q : RuleId} {r : Rule}
    (hr : g.rule? q = some r) {x : SymbolId} (hx : x ∈ r.body) (inner : x ≠ g.endOfInput) :
    g.IsTerminal x ∨ g.isNonterminal x = true := by
  rcases q with _ | k
  · obtain rfl : g.acceptRule = r := Option.some.inj hr
    have hmem : x ∈ [g.start, g.endOfInput] := Array.mem_toList_iff.mpr hx
    rw [List.mem_cons, List.mem_singleton] at hmem
    rcases hmem with rfl | rfl
    · exact Or.inr g.start_nonterminal
    · exact absurd rfl inner
  · exact isTerminal_or_isNonterminal (Array.mem_of_getElem? hr) hx

namespace Valid

variable {γ : List SymbolId} {i : Item}

/-- A valid item is of some rule, with its cursor inside the body. -/
theorem exists_rule (h : g.Valid γ i) :
    ∃ r, g.rule? i.rule = some r ∧ i.cursor ≤ r.body.size := by
  induction h with
  | start => exact ⟨g.acceptRule, rfl, Nat.zero_le _⟩
  | predict h awaits rule ih =>
      obtain ⟨j, r, rfl, hr, -⟩ := mem_rulesOf.mp rule
      exact ⟨r, hr, Nat.zero_le _⟩
  | @advance γ i x h next inner ih =>
      obtain ⟨r, hr, -⟩ := ih
      refine ⟨r, hr, ?_⟩
      rw [Item.next?_of_rule? hr] at next
      have hlt := (List.getElem?_eq_some_iff.mp next).1
      rw [Array.length_toList] at hlt
      exact hlt

/-- The accepting rule is never seen to its end. -/
theorem of_rule_zero (h : g.Valid γ i) (hi : i.rule = 0) :
    i = .initial 0 ∧ γ = [] ∨ i = ⟨0, 1⟩ ∧ γ = [g.start] := by
  induction h with
  | start => exact Or.inl ⟨rfl, rfl⟩
  | predict h awaits rule ih =>
      obtain ⟨j, r, rfl, hr, -⟩ := mem_rulesOf.mp rule
      cases hi
  | @advance γ i x h next inner ih =>
      rcases ih hi with ⟨rfl, rfl⟩ | ⟨rfl, rfl⟩
      · obtain rfl : g.start = x := Option.some.inj next
        exact Or.inr ⟨rfl, rfl⟩
      · obtain rfl : g.endOfInput = x := Option.some.inj next
        exact absurd rfl inner

/-- What stands before the cursor is on top of the stack, and below it the rule was begun. -/
theorem spells (h : g.Valid γ i) {r : Rule} (hr : g.rule? i.rule = some r) :
    ∃ γ', γ = (r.body.toList.take i.cursor).reverse ++ γ' ∧ g.Valid γ' (.initial i.rule) := by
  induction h with
  | start => exact ⟨[], rfl, .start⟩
  | @predict γ i n q h awaits rule ih => exact ⟨γ, rfl, .predict h awaits rule⟩
  | @advance γ i x h next inner ih =>
      obtain ⟨γ', rfl, hbegun⟩ := ih hr
      refine ⟨γ', ?_, hbegun⟩
      rw [Item.next?_of_rule? (i := i) hr] at next
      show x :: _ = (r.body.toList.take (i.cursor + 1)).reverse ++ γ'
      rw [List.take_add_one, next, Option.toList_some, List.reverse_append]
      rfl

/-- A given rule is begun where its head is awaited. -/
theorem exists_awaits {q : RuleId} (h : g.Valid γ (.initial (q + 1))) {r : Rule}
    (hr : g.rules[q]? = some r) : ∃ j, g.Valid γ j ∧ j.awaits? g = some r.head := by
  generalize hi : Item.initial (q + 1) = i at h
  cases h with
  | start => cases hi
  | @predict γ j n q' h awaits rule =>
      cases hi
      obtain ⟨k, r', hk, hr', rfl⟩ := mem_rulesOf.mp rule
      obtain rfl : q = k := Nat.succ.inj hk
      obtain rfl : r = r' := Option.some.inj (hr.symm.trans hr')
      exact ⟨j, h, awaits⟩
  | advance h next inner => exact Nat.noConfusion (congrArg Item.cursor hi)

/-- Only rules that the start symbol leads to have valid items. -/
theorem reachable_head (h : g.Valid γ i) {r : Rule} (hr : g.rule? i.rule = some r) {k : Nat}
    (hk : i.rule = k + 1) : g.Reachable r.head := by
  induction h generalizing r k with
  | start => cases hk
  | @predict γ i n q h awaits rule ih =>
      obtain ⟨j, r', rfl, hr', rfl⟩ := mem_rulesOf.mp rule
      obtain rfl : r = r' := Option.some.inj (hr.symm.trans hr')
      obtain ⟨next, hnon⟩ := Item.awaits?_eq_some_iff.mp awaits
      obtain ⟨r₀, hr₀, hx⟩ := Option.bind_eq_some_iff.mp next
      exact reachable_of_mem_body hr₀ (fun hk₀ => ih hr₀ hk₀) (Array.mem_of_getElem? hx)
        (ne_endOfInput_of_isNonterminal hnon)
  | advance h next inner ih => exact ih hr hk

end Valid

end Grammar

/-! ## Paths -/

namespace Automaton

variable {a : Automaton} {σ : List (StateId × Tree SymbolId RuleId)} {p q : StateId}

/-- The states of a stack are a path of the automaton, from its start to a state. -/
inductive Linked (a : Automaton) : List (StateId × Tree SymbolId RuleId) → StateId → Prop
  | start : Linked a [] 0
  | push {σ p t q} (h : Linked a σ p) (edge : a.transition? p t.symbol = some q) :
      Linked a ((p, t) :: σ) q

/-- Below the top of a stack there is a path as well. -/
theorem Linked.of_append {popped : List (StateId × Tree SymbolId RuleId)}
    (h : a.Linked (popped ++ σ) q) : a.Linked σ (stateBelow q popped) := by
  induction popped generalizing q with
  | nil => exact h
  | cons e popped ih =>
      cases h with
      | push h edge => exact ih h

variable (serves : a.Serves g)

include serves

theorem Linked.exists_label (h : a.Linked σ q) :
    ∃ items, a.label? q = some (closure g items) := by
  cases h with
  | start => exact ⟨_, serves.start⟩
  | push h edge =>
      obtain ⟨label, -, -, htarget⟩ := serves.sound _ _ _ edge
      exact ⟨_, htarget⟩

/-- **Labels are the valid items.** -/
theorem Linked.mem_label_iff (h : a.Linked σ q) {label : ItemSet}
    (hlabel : a.label? q = some label) {i : Item} :
    i ∈ label ↔ g.Valid (stackSymbols σ) i := by
  constructor
  · intro hi
    induction h generalizing label i with
    | start =>
        obtain rfl : startLabel g = label := Option.some.inj (serves.start.symm.trans hlabel)
        induction mem_closure_iff.mp hi with
        | given h =>
            obtain rfl := List.mem_singleton.mp h
            exact .start
        | predict h awaits rule ih =>
            exact .predict (ih (mem_closure_iff.mpr h)) awaits rule
    | push h edge ih =>
        obtain ⟨below, hbelow, hawaited, htarget⟩ := serves.sound _ _ _ edge
        obtain rfl : goto g below _ = label := Option.some.inj (htarget.symm.trans hlabel)
        -- what is given to this closure comes from the label below, the rest is predicted here
        induction mem_closure_iff.mp hi with
        | given h =>
            obtain ⟨j, hj, rfl⟩ := List.mem_map.mp h
            obtain ⟨hmem, hnext⟩ := mem_awaiting.mp hj
            exact .advance (ih hbelow hmem) hnext (mem_awaitedSymbols.mp hawaited).2
        | predict h awaits rule ih =>
            exact .predict (ih (mem_closure_iff.mpr h)) awaits rule
  · intro hi
    generalize hγ : stackSymbols σ = γ at hi
    induction hi generalizing σ q label with
    | start =>
        obtain rfl : σ = [] := List.map_eq_nil_iff.mp hγ
        cases h
        obtain rfl : startLabel g = label := Option.some.inj (serves.start.symm.trans hlabel)
        exact mem_closure_iff.mpr (.given List.mem_cons_self)
    | predict _ awaits rule ih =>
        obtain ⟨items, hitems⟩ := h.exists_label serves
        obtain rfl : closure g items = label := Option.some.inj (hitems.symm.trans hlabel)
        exact mem_closure_iff.mpr (.predict (mem_closure_iff.mp (ih h hlabel hγ)) awaits rule)
    | advance _ next inner ih =>
        cases h with
        | start => cases hγ
        | push h edge =>
            obtain ⟨rfl, rfl⟩ := List.cons.inj hγ
            obtain ⟨below, hbelow, -, htarget⟩ := serves.sound _ _ _ edge
            obtain rfl : goto g below _ = label := Option.some.inj (htarget.symm.trans hlabel)
            exact mem_closure_iff.mpr (.given (List.mem_map_of_mem
              (mem_awaiting.mpr ⟨ih h hbelow rfl, next⟩)))

/-- A path goes on with each symbol that a valid item awaits, but for the end marker. -/
theorem Linked.exists_transition (h : a.Linked σ q) {i : Item}
    (valid : g.Valid (stackSymbols σ) i) {x : SymbolId} (next : i.next? g = some x)
    (inner : x ≠ g.endOfInput) : ∃ j, a.transition? q x = some j := by
  obtain ⟨items, hlabel⟩ := h.exists_label serves
  exact serves.complete q _ x hlabel
    (mem_awaitedSymbols.mpr ⟨⟨i, (h.mem_label_iff serves hlabel).mpr valid, next⟩, inner⟩)

/-- A path goes on with no other symbols. -/
theorem Linked.exists_awaits (h : a.Linked σ p) {x : SymbolId} (edge : a.transition? p x = some q) :
    ∃ i, g.Valid (stackSymbols σ) i ∧ i.next? g = some x ∧ x ≠ g.endOfInput := by
  obtain ⟨label, hlabel, hawaited, -⟩ := serves.sound _ _ _ edge
  obtain ⟨⟨i, hi, hnext⟩, hinner⟩ := mem_awaitedSymbols.mp hawaited
  exact ⟨i, (h.mem_label_iff serves hlabel).mp hi, hnext, hinner⟩

/-- There is a valid item behind every path. -/
theorem Linked.exists_valid (h : a.Linked σ q) : ∃ i, g.Valid (stackSymbols σ) i := by
  cases h with
  | start => exact ⟨_, .start⟩
  | push h edge =>
      obtain ⟨i, hi, hnext, hinner⟩ := h.exists_awaits serves edge
      exact ⟨_, .advance hi hnext hinner⟩

end Automaton

end ShiftReduce
