import ShiftReduce.Proofs.Automaton.Overflow
import ShiftReduce.Proofs.SlrTable.Completeness
import ShiftReduce.Proofs.SlrTable.Conflicts

/-!
# Ambiguous grammars

A grammar is ambiguous if two of its derivation trees have the same leaves. Whether it is cannot be
decided, but its table need not decide it: the parser finds every derivation tree in the leaves, and
from one input it comes to one result, so a table has room for one tree only
(`SlrTable.unambiguous_of_compile`). So an ambiguous grammar has no table
(`SlrTable.compile_eq_error_of_ambiguous`).

What is then reported is a conflict or the number of the states, unless a body is longer than a cursor
can count. In this case the construction may break off with neither
(`SlrTable.compile_stretched_ambiguous`).
-/

namespace ShiftReduce

/-- No two derivation trees have the same leaves. -/
def Grammar.Unambiguous (g : Grammar) : Prop :=
  ∀ T U : Tree SymbolId RuleId, g.IsDerivationTree T → g.IsDerivationTree U →
    T.leaves = U.leaves → T = U

namespace SlrTable

variable {g : Grammar} {t : SlrTable}

/-- Both trees would be the result of the one parse of their leaves. -/
theorem unambiguous_of_compile (h : compile g = .ok t) : g.Unambiguous := by
  intro T U hT hU leaves
  obtain ⟨a, hdescribes⟩ := describes_of_compile h
  have closed := (FirstFollow.compute_proper_closed g).2
  obtain ⟨c, hreach, hstop⟩ := exists_reaches_accept (E := Empty) hdescribes closed hT
  obtain ⟨d, hreach', hstop'⟩ := exists_reaches_accept (E := Empty) hdescribes closed hU
  rw [← leaves] at hreach'
  exact Except.ok.inj (ParsingTable.stop_unique hreach hstop hreach' hstop')

/-- **Ambiguous grammars are refused**, for a conflict between two actions or for the number of their
states, or because a body is longer than a cursor can count. -/
theorem compile_eq_error_of_ambiguous (ambiguous : ¬ g.Unambiguous) :
    ∃ e, compile g = .error e ∧
      ((∃ i x old new, e = .conflict i x (g.nameOf x) old new ∧ old ≠ new) ∨
        e = .automaton .tooManyStates ∨
        (∃ i x, e = .automaton (.cursorOverflow i x)) ∧
          ∃ r ∈ g.rules, Item.maxCursor < r.body.size) := by
  cases hcompile : compile g with
  | ok t => exact absurd (unambiguous_of_compile hcompile) ambiguous
  | error e =>
      refine ⟨e, rfl, ?_⟩
      rw [compile, compileWith] at hcompile
      cases hbuild : Automaton.build g with
      | error e' =>
          rw [hbuild] at hcompile
          obtain rfl := Except.error.inj hcompile
          cases Automaton.genuine_of_build hbuild with
          | tooManyStates => exact Or.inr (Or.inl rfl)
          | cursorOverflow rule overlong =>
              exact Or.inr (Or.inr ⟨⟨_, _, rfl⟩, _, rule, overlong⟩)
      | ok a =>
          rw [hbuild] at hcompile
          obtain ⟨i, x, old, new, he, hconflict, -⟩ := isConflict_of_ofAutomaton hbuild hcompile
          exact Or.inl ⟨i, x, old, new, he, hconflict.different⟩

/-- A sum of three numbers can be read from either side, and after two of them `plus` is a conflict. -/
theorem compile_sums_ambiguous : ¬ sums.Unambiguous ∧
    compile sums = .error (.conflict 4 1 "plus" (.shift 3) (.reduce 1)) := by
  let number (text : String) : Tree SymbolId RuleId := .node 3 2 [.leaf ⟨0, text⟩]
  let sum (T U : Tree SymbolId RuleId) : Tree SymbolId RuleId := .node 3 1 [T, .leaf ⟨1, "+"⟩, U]
  have hambiguous : ¬ sums.Unambiguous := by
    intro h
    have hleft : sums.IsDerivationTree (sum (sum (number "1") (number "2")) (number "3")) := by
      decide +kernel
    have hright : sums.IsDerivationTree (sum (number "1") (sum (number "2") (number "3"))) := by
      decide +kernel
    have heq := h _ _ hleft hright (by decide +kernel)
    exact absurd heq (by decide +kernel)
  have hreport : (compile sums).map (fun _ => ()) =
      .error (.conflict 4 1 "plus" (.shift 3) (.reduce 1)) := by
    decide +kernel
  obtain ⟨e, herror, -⟩ := compile_eq_error_of_ambiguous hambiguous
  rw [herror] at hreport
  obtain rfl : e = _ := Except.error.inj hreport
  exact ⟨hambiguous, herror⟩

/-! ## Neither a conflict nor too many states -/

/-- The construction breaks off before the rows are filled. -/
theorem compile_stretched {n : Nat} (long : Item.maxCursor ≤ n + 1) :
    compile (stretched n) = .error (.automaton (.cursorOverflow Item.maxCursor 0)) := by
  rw [compile, compileWith, Automaton.build_stretched long]

/-- Nothing is an `S`, and as such an `S` again. -/
theorem not_unambiguous_stretched (n : Nat) : ¬ (stretched n).Unambiguous := by
  intro h
  have hnone : (Tree.node 2 3 [] : Tree SymbolId RuleId).Grows (stretched n) :=
    Tree.grows_node rfl nofun
  have hagain : (Tree.node 2 2 [.node 2 3 []] : Tree SymbolId RuleId).Grows (stretched n) :=
    Tree.grows_node rfl (List.forall_mem_singleton.mpr hnone)
  have heq := h _ _ ⟨rfl, hnone⟩ ⟨rfl, hagain⟩ rfl
  cases heq

/-- A body of `S` and 65535 times `a` is one symbol too long. The grammar is ambiguous, but neither a
conflict nor the number of the states is reported. -/
theorem compile_stretched_ambiguous :
    Grammar.ofNamed letters "S" (stretchedRules 65534).toList = .ok (stretched 65534) ∧
    ¬ (stretched 65534).Unambiguous ∧
    compile (stretched 65534) = .error (.automaton (.cursorOverflow 65535 0)) ∧
    ¬ ∃ e, compile (stretched 65534) = .error e ∧
      ((∃ i x name old new, e = .conflict i x name old new) ∨ e = .automaton .tooManyStates) := by
  have hcompile := compile_stretched (Nat.le_refl Item.maxCursor : Item.maxCursor ≤ 65534 + 1)
  refine ⟨ofNamed_stretched 65534, not_unambiguous_stretched 65534, hcompile, ?_⟩
  rintro ⟨e, herror, hcases⟩
  obtain rfl := Except.error.inj (hcompile.symm.trans herror)
  rcases hcases with ⟨i, x, name, old, new, he⟩ | he
  · cases he
  · cases he

end SlrTable

end ShiftReduce
