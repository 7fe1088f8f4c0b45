import Mathlib.Logic.Equiv.Defs
import ShiftReduce.Proofs.Automaton.ItemSet
import ShiftReduce.Proofs.Grammar.Passes

/-!
# Rules in another order

Two grammars with the same symbols, the same start symbol and the same rules may give the rules in
different orders, and then number them differently. No two rules share a name, so the number that a
rule has in the other grammar is found by its name (`Grammar.renumber`), and there and back is where it
was (`renumber_renumber`).

Which rules there are decides what is derived, and so the finished sets are the same
(`compute_eq`), in whatever order the passes have looked at the rules.
-/

namespace ShiftReduce

namespace Grammar

variable {g g' : Grammar}

/-- The same grammar up to the order of its rules. -/
structure Permutes (g g' : Grammar) : Prop where
  symbols : g.vocabulary.symbols = g'.vocabulary.symbols
  start : g.start = g'.start
  rules : g.rules.toList.Perm g'.rules.toList

namespace Permutes

theorem symm (h : g.Permutes g') : g'.Permutes g := ⟨h.symbols.symm, h.start.symm, h.rules.symm⟩

theorem symbol?_eq (h : g.Permutes g') (x : SymbolId) : g.symbol? x = g'.symbol? x := by
  rw [symbol?, symbol?, Vocabulary.symbol?, Vocabulary.symbol?, h.symbols]

theorem isNonterminal_eq (h : g.Permutes g') (x : SymbolId) :
    g.isNonterminal x = g'.isNonterminal x :=
  Bool.eq_iff_iff.mpr (by rw [isNonterminal_iff_kind, isNonterminal_iff_kind, h.symbol?_eq])

theorem endOfInput_eq (h : g.Permutes g') : g.endOfInput = g'.endOfInput := by
  rw [eq_endOfInput_iff_kind, ← h.symbol?_eq, ← eq_endOfInput_iff_kind]

theorem acceptRule_eq (h : g.Permutes g') : g.acceptRule = g'.acceptRule := by
  rw [acceptRule, acceptRule, h.start, h.endOfInput_eq]

theorem mem_rules (h : g.Permutes g') {r : Rule} (hr : r ∈ g.rules) : r ∈ g'.rules :=
  Array.mem_toList_iff.mp (h.rules.mem_iff.mp (Array.mem_toList_iff.mpr hr))

theorem size_rules (h : g.Permutes g') : g.rules.size = g'.rules.size := h.rules.length_eq

end Permutes

/-! ## Numbers by name -/

/-- No two rules share a name. -/
theorem eq_of_name_eq {i j : Nat} {r q : Rule} (hi : g.rules[i]? = some r)
    (hj : g.rules[j]? = some q) (hname : r.name = q.name) : i = j := by
  have hnames := List.pairwise_iff_getElem.mp g.rules_wellFormed.names
  obtain ⟨hi', rfl⟩ := Array.getElem?_eq_some_iff.mp hi
  obtain ⟨hj', rfl⟩ := Array.getElem?_eq_some_iff.mp hj
  rcases Nat.lt_trichotomy i j with hlt | heq | hgt
  · exact absurd hname (hnames i j hi' hj' hlt)
  · exact heq
  · exact absurd hname.symm (hnames j i hj' hi' hgt)

theorem ruleNamed?_of_rules {k : Nat} {r : Rule} (hr : g.rules[k]? = some r) :
    g.ruleNamed? r.name = some (k + 1) := by
  have hmem : k + 1 ∈ g.ruleIds :=
    mem_ruleIds.mpr ⟨k, rfl, (Array.getElem?_eq_some_iff.mp hr).1⟩
  have hname : (g.rule? (k + 1)).any (fun q => q.name = r.name) = true := by
    rw [rule?, hr, Option.any_some, decide_eq_true_eq]
  cases hfind : g.ruleNamed? r.name with
  | none => exact absurd hname (List.find?_eq_none.mp hfind _ hmem)
  | some q =>
      obtain ⟨j, rfl, hj⟩ := mem_ruleIds.mp (List.mem_of_find?_eq_some hfind)
      have hfound := List.find?_some hfind
      rw [rule?, Array.getElem?_eq_getElem hj, Option.any_some, decide_eq_true_eq] at hfound
      rw [eq_of_name_eq (Array.getElem?_eq_getElem hj) hr hfound]

/-- The number that a rule has in another grammar, by its name. The accepting rule has number 0 in
both, and a number that is not in use stays as it is. -/
def renumber (g g' : Grammar) : RuleId → RuleId
  | 0 => 0
  | k + 1 => (g.rules[k]?.bind fun r => g'.ruleNamed? r.name).getD (k + 1)

namespace Permutes

theorem exists_renumber (h : g.Permutes g') {k : Nat} {r : Rule} (hr : g.rules[k]? = some r) :
    ∃ k', g.renumber g' (k + 1) = k' + 1 ∧ g'.rules[k']? = some r := by
  obtain ⟨k', hk', rfl⟩ := Array.mem_iff_getElem.mp (h.mem_rules (Array.mem_of_getElem? hr))
  refine ⟨k', ?_, Array.getElem?_eq_getElem hk'⟩
  rw [renumber, hr, Option.bind_some, ruleNamed?_of_rules (Array.getElem?_eq_getElem hk'),
    Option.getD_some]

/-- A number and its counterpart are those of the same rule. -/
theorem rule?_renumber (h : g.Permutes g') (q : RuleId) : g'.rule? (g.renumber g' q) = g.rule? q := by
  rcases q with _ | k
  · exact congrArg some h.symm.acceptRule_eq
  · rw [rule?]
    cases hr : g.rules[k]? with
    | none =>
        rw [renumber, hr, Option.bind_none, Option.getD_none, rule?]
        rwa [Array.getElem?_eq_none_iff, ← h.size_rules, ← Array.getElem?_eq_none_iff]
    | some r =>
        obtain ⟨k', hk', hr'⟩ := h.exists_renumber hr
        rw [hk', rule?, hr']

/-- There and back is where it was. -/
theorem renumber_renumber (h : g.Permutes g') (q : RuleId) :
    g'.renumber g (g.renumber g' q) = q := by
  rcases q with _ | k
  · rfl
  · cases hr : g.rules[k]? with
    | none =>
        have hr' : g'.rules[k]? = none := by
          rwa [Array.getElem?_eq_none_iff, ← h.size_rules, ← Array.getElem?_eq_none_iff]
        simp only [renumber, hr, hr', Option.bind_none, Option.getD_none]
    | some r =>
        obtain ⟨k', hk', hr'⟩ := h.exists_renumber hr
        obtain ⟨k'', hk'', hr''⟩ := h.symm.exists_renumber hr'
        rw [hk', hk'', eq_of_name_eq hr'' hr rfl]

/-- The numbers of one grammar and those of the other. -/
def renumbering (h : g.Permutes g') : Equiv.Perm RuleId where
  toFun := g.renumber g'
  invFun := g'.renumber g
  left_inv := h.renumber_renumber
  right_inv := h.symm.renumber_renumber

end Permutes

/-- The same grammar up to the order of its rules, with the change of their numbers. -/
structure Renumbers (g g' : Grammar) (ρ : Equiv.Perm RuleId) : Prop extends g.Permutes g' where
  zero : ρ 0 = 0
  rule? : ∀ q, g'.rule? (ρ q) = g.rule? q

theorem Permutes.renumbers (h : g.Permutes g') : g.Renumbers g' h.renumbering :=
  ⟨h, rfl, h.rule?_renumber⟩

theorem Renumbers.symm {ρ : Equiv.Perm RuleId} (h : g.Renumbers g' ρ) : g'.Renumbers g ρ.symm where
  toPermutes := h.toPermutes.symm
  zero := ρ.symm_apply_eq.mpr h.zero.symm
  rule? q := by rw [← h.rule?, ρ.apply_symm_apply]

/-! ## Derivations -/

namespace Permutes

theorem derivesTo (h : g.Permutes g') {u v : List SymbolId} (huv : g.DerivesTo u v) :
    g'.DerivesTo u v := by
  induction huv with
  | refl => exact .refl u
  | tail _ hstep ih =>
      obtain ⟨a, b, hr⟩ := hstep
      exact ih.trans (.single (.rule a b (h.mem_rules hr)))

theorem isTerminal (h : g.Permutes g') {x : SymbolId} (hx : g.IsTerminal x) : g'.IsTerminal x := by
  rwa [IsTerminal, ← h.symbol?_eq]

theorem isLookahead (h : g.Permutes g') {x : SymbolId} (hx : g.IsLookahead x) :
    g'.IsLookahead x := by
  rcases hx with hx | rfl
  · exact Or.inl (h.isTerminal hx)
  · exact Or.inr h.endOfInput_eq

theorem holds (h : g.Permutes g') {f : FirstFollow.Fact} (hf : f.Holds g) : f.Holds g' := by
  cases f with
  | nullable x => exact h.derivesTo hf
  | first x t =>
      obtain ⟨ht, b, hb⟩ := hf
      exact ⟨h.isLookahead ht, b, h.derivesTo hb⟩
  | follow x t =>
      rcases hf with ⟨ht, n, hn, a, b, hab⟩ | ⟨rfl, a, ha⟩
      · rw [h.isNonterminal_eq] at hn
        exact Or.inl ⟨h.isTerminal ht, n, hn, a, b, h.derivesTo hab⟩
      · rw [h.start] at ha
        exact Or.inr ⟨h.endOfInput_eq, a, h.derivesTo ha⟩

/-- **The finished sets do not depend on the order of the rules.** -/
theorem compute_eq (h : g.Permutes g') : FirstFollow.compute g = FirstFollow.compute g' := by
  have hsize : g.vocabulary.size = g'.vocabulary.size := congrArg Array.size h.symbols
  refine FirstFollow.eq_of_knows_iff (FirstFollow.sound_compute g).proper
    (FirstFollow.sound_compute g').proper hsize fun f => ?_
  rw [(FirstFollow.exact_compute g).knows_iff, (FirstFollow.exact_compute g').knows_iff]
  exact ⟨h.holds, h.symm.holds⟩

end Permutes

end Grammar

end ShiftReduce
