import ShiftReduce.Proofs.Automaton.Renumbering
import ShiftReduce.Proofs.Parser.Renumbering
import ShiftReduce.Proofs.SlrTable.Completeness
import ShiftReduce.Proofs.SlrTable.Conflicts

/-!
# Tables of reordered rules

The order in which a grammar gives its rules decides their numbers, and with these the order in which
labels are kept and actions are entered. But what a state demands is the same up to the numbers
(`Demands.renumber`). So there is a conflict in one table where there is one in the other, and if there is
none, the tables have the same actions and their parsers give the same trees and errors, up to the
numbers of rules (`compile_permuted`).

A conflict is found in the same state for both orders, but which actions of that state clash first is a
matter of the order.
-/

namespace ShiftReduce

theorem Action.mapRule_symm_mapRule {ρ : Equiv.Perm RuleId} (act : Action RuleId) :
    (act.mapRule ρ).mapRule ρ.symm = act := by
  cases act with
  | shift next => rfl
  | reduce rule => exact congrArg Action.reduce (ρ.symm_apply_apply rule)
  | accept => rfl

theorem Action.mapRule_mapRule_symm {ρ : Equiv.Perm RuleId} (act : Action RuleId) :
    (act.mapRule ρ.symm).mapRule ρ = act :=
  mapRule_symm_mapRule (ρ := ρ.symm) act

namespace SlrTable

variable {g g' : Grammar} {ρ : Equiv.Perm RuleId} {sets : FirstFollow} {a : Automaton}
  {t t' : SlrTable}

/-! ## Demands under other numbers -/

theorem Demands.renumber (h : g.Renumbers g' ρ) {i : StateId} {x : SymbolId} {act : Action RuleId}
    (hdemand : Demands g sets a i x act) :
    Demands g' sets (a.renumber ρ) i x (act.mapRule ρ) := by
  have hlabels : ∀ label, a.label? i = some label →
      (a.renumber ρ).label? i = some (label.renumber ρ) := by
    intro label hlabel
    rw [Automaton.label?_renumber, hlabel, Option.map_some]
  cases hdemand with
  | shift edge =>
      rw [← Automaton.transition?_renumber ρ] at edge
      exact .shift edge
  | @accept label label? item finish =>
      have hitem := ItemSet.renumber_mem_renumber (ρ := ρ) item
      rw [Item.renumber, h.zero] at hitem
      exact .accept (hlabels label label?) hitem (finish.trans h.endOfInput_eq)
  | @reduce label q r label? rule item follows =>
      exact .reduce (hlabels label label?) ((h.rule? q).trans rule)
        (ItemSet.renumber_mem_renumber item) follows

/-- The same is demanded, up to the numbers. -/
theorem demands_renumber_iff (h : g.Renumbers g' ρ) {i : StateId} {x : SymbolId}
    {act : Action RuleId} :
    Demands g' sets (a.renumber ρ) i x act ↔ Demands g sets a i x (act.mapRule ρ.symm) := by
  constructor
  · intro hdemand
    have hback := hdemand.renumber h.symm
    rwa [Automaton.renumber_symm_renumber] at hback
  · intro hdemand
    have hthere := hdemand.renumber h
    rwa [Action.mapRule_mapRule_symm] at hthere

theorem Conflicted.renumber (h : g.Renumbers g' ρ) {i : StateId}
    (hconflicted : Conflicted g sets a i) : Conflicted g' sets (a.renumber ρ) i := by
  obtain ⟨x, old, new, existing, incoming, different⟩ := hconflicted
  refine ⟨x, old.mapRule ρ, new.mapRule ρ, existing.renumber h, incoming.renumber h, ?_⟩
  intro heq
  apply different
  rw [← old.mapRule_symm_mapRule (ρ := ρ), heq, new.mapRule_symm_mapRule]

theorem conflicted_renumber_iff (h : g.Renumbers g' ρ) (i : StateId) :
    Conflicted g' sets (a.renumber ρ) i ↔ Conflicted g sets a i := by
  constructor
  · intro hconflicted
    have hback := hconflicted.renumber h.symm
    rwa [Automaton.renumber_symm_renumber] at hback
  · exact Conflicted.renumber h

/-! ## Tables under other numbers -/

/-- The tables of both orders have the same actions, up to the numbers of rules. -/
theorem action?_renumber (h : g.Renumbers g' ρ) (htable : ofAutomaton g a sets = .ok t)
    (htable' : ofAutomaton g' (a.renumber ρ) sets = .ok t') (i : StateId) (x : SymbolId) :
    t'.action? i x = (t.action? i x).map (Action.mapRule ρ) := by
  apply Option.ext
  intro act
  rw [action?_iff_of_ofAutomaton htable', demands_renumber_iff h,
    ← action?_iff_of_ofAutomaton htable, Option.map_eq_some_iff]
  constructor
  · intro hact
    exact ⟨_, hact, act.mapRule_mapRule_symm⟩
  · rintro ⟨act', hact, rfl⟩
    rwa [act'.mapRule_symm_mapRule]

/-- To a parser, the tables differ in the numbers of rules. -/
theorem renames_parsing (h : g.Renumbers g' ρ) (hgrammar : t.grammar = g) (hgrammar' : t'.grammar = g')
    (haction : ∀ i x, t'.action? i x = (t.action? i x).map (Action.mapRule ρ)) :
    t.parsing.Renames ρ t'.parsing where
  initial := rfl
  endOfInput := by
    show t'.grammar.endOfInput = t.grammar.endOfInput
    rw [hgrammar, hgrammar', h.endOfInput_eq]
  start := by
    show t'.grammar.start = t.grammar.start
    rw [hgrammar, hgrammar', h.start]
  isToken := by
    funext x
    show (t'.grammar.symbol? x).any _ = (t.grammar.symbol? x).any _
    rw [hgrammar, hgrammar', h.symbol?_eq]
  action? := haction
  production? q := by
    show t'.grammar.production? (ρ q) = t.grammar.production? q
    rw [hgrammar, hgrammar', Grammar.production?, Grammar.production?, h.rule?]

theorem compileWith_eq_conflict_iff {i : StateId} {x : SymbolId} {name : String}
    {old new : Action RuleId} : compileWith g sets = .error (.conflict i x name old new) ↔
      ∃ a, Automaton.build g = .ok a ∧ ofAutomaton g a sets = .error (.conflict i x name old new) := by
  unfold compileWith
  cases Automaton.build g with
  | error e => simp
  | ok a => simp

/-! ## Rules in another order -/

theorem build_of_permutes (h : g.Permutes g') (hbuild : Automaton.build g = .ok a) :
    Automaton.build g' = .ok (a.renumber h.renumbering) := by
  rw [h.renumbers.build_eq, hbuild]
  rfl

theorem build_error_of_permutes (h : g.Permutes g') {e : AutomatonError}
    (hbuild : Automaton.build g = .error e) : Automaton.build g' = .error e := by
  rw [h.renumbers.build_eq, hbuild]
  rfl

theorem exists_compile_of_permutes (h : g.Permutes g') (ht : compile g = .ok t) :
    ∃ t', compile g' = .ok t' := by
  obtain ⟨a, hbuild, htable⟩ := compileWith_eq_ok_iff.mp ht
  have hbuild' := build_of_permutes h hbuild
  have hnone : ∀ i, ¬ Conflicted g' (.compute g) (a.renumber h.renumbering) i := by
    intro i
    rw [conflicted_renumber_iff h.renumbers]
    exact (exists_ofAutomaton_iff hbuild).mp ⟨t, htable⟩ i
  obtain ⟨t', htable'⟩ := (exists_ofAutomaton_iff hbuild').mpr hnone
  rw [h.compute_eq] at htable'
  exact ⟨t', compileWith_eq_ok_iff.mpr ⟨_, hbuild', htable'⟩⟩

theorem exists_conflict_of_permutes (h : g.Permutes g') {i : StateId}
    (hconflict : ∃ x name old new, compile g = .error (.conflict i x name old new)) :
    ∃ x name old new, compile g' = .error (.conflict i x name old new) := by
  obtain ⟨x, name, old, new, herror⟩ := hconflict
  obtain ⟨a, hbuild, htable⟩ := compileWith_eq_conflict_iff.mp herror
  have hbuild' := build_of_permutes h hbuild
  have hfirst := (exists_conflict_iff hbuild).mp ⟨x, name, old, new, htable⟩
  simp only [← conflicted_renumber_iff h.renumbers] at hfirst
  obtain ⟨x', name', old', new', htable'⟩ := (exists_conflict_iff hbuild').mpr hfirst
  rw [h.compute_eq] at htable'
  exact ⟨x', name', old', new', compileWith_eq_conflict_iff.mpr ⟨_, hbuild', htable'⟩⟩

theorem action?_of_permutes (h : g.Permutes g') (ht : compile g = .ok t) (ht' : compile g' = .ok t')
    (i : StateId) (x : SymbolId) :
    t'.action? i x = (t.action? i x).map (Action.mapRule (g.renumber g')) := by
  obtain ⟨a, hbuild, htable⟩ := compileWith_eq_ok_iff.mp ht
  obtain ⟨a', hbuild', htable'⟩ := compileWith_eq_ok_iff.mp ht'
  obtain rfl : a.renumber h.renumbering = a' :=
    Except.ok.inj ((build_of_permutes h hbuild).symm.trans hbuild')
  rw [← h.compute_eq] at htable'
  exact action?_renumber h.renumbers htable htable' i x

theorem grammar_of_compile (ht : compile g = .ok t) : t.grammar = g := by
  obtain ⟨a, -, htable⟩ := compileWith_eq_ok_iff.mp ht
  exact grammar_of_ofAutomaton htable

/-- **The order of the rules does not matter.** Two grammars whose rules differ in their order have the
same automaton, or none for the same reason; both have a table, or none has. The tables have the same
actions, up to the numbers of rules, which are those of the rules with the same names; and the parsers
give the same trees and errors, up to these numbers. Where there is a conflict, it is found in the same
state. -/
theorem compile_permuted (h : g.Permutes g') :
    (∀ e, Automaton.build g = .error e ↔ Automaton.build g' = .error e) ∧
    (∀ a a', Automaton.build g = .ok a → Automaton.build g' = .ok a' →
      a'.size = a.size ∧ ∀ i x, a'.transition? i x = a.transition? i x) ∧
    ((∃ t, compile g = .ok t) ↔ ∃ t', compile g' = .ok t') ∧
    (∀ t t', compile g = .ok t → compile g' = .ok t' →
      (∀ i x, t'.action? i x = (t.action? i x).map (Action.mapRule (g.renumber g'))) ∧
      ∀ (E : Type) (fuel : Nat) (items : List (Except E (Token SymbolId))),
        t'.parse fuel items = (t.parse fuel items).map (mapResult (g.renumber g'))) ∧
    ∀ i, (∃ x name old new, compile g = .error (.conflict i x name old new)) ↔
      ∃ x name old new, compile g' = .error (.conflict i x name old new) := by
  refine ⟨fun e => ⟨build_error_of_permutes h, build_error_of_permutes h.symm⟩, ?_, ?_, ?_,
    fun i => ⟨exists_conflict_of_permutes h, exists_conflict_of_permutes h.symm⟩⟩
  · intro a a' hbuild hbuild'
    obtain rfl : a.renumber h.renumbering = a' :=
      Except.ok.inj ((build_of_permutes h hbuild).symm.trans hbuild')
    exact ⟨a.size_renumber _, a.transition?_renumber _⟩
  · constructor
    · rintro ⟨t, ht⟩
      exact exists_compile_of_permutes h ht
    · rintro ⟨t', ht'⟩
      exact exists_compile_of_permutes h.symm ht'
  · intro t t' ht ht'
    have haction := action?_of_permutes h ht ht'
    have hrenames := renames_parsing h.renumbers (grammar_of_compile ht) (grammar_of_compile ht')
      haction
    exact ⟨haction, fun E fuel items => hrenames.parse_eq fuel items⟩

/-- The lists of `repetition`, with the rules the other way round. -/
def defineRepetitionBackwards : DefinitionM Unit := do
  let a ← .terminal "a"
  let b ← .terminal "b"
  let _ ← .endOfInput "end"
  let list ← .nonterminal "LIST"
  let option ← .nonterminal "OPTION"
  let _ ← .rule "NONE" option []
  let _ ← .rule "SOME" option [a]
  let _ ← .rule "DONE" list []
  let _ ← .rule "MORE" list [list, option, b]

theorem isOk_defineRepetitionBackwards :
    (Grammar.define defineRepetitionBackwards).isOk = true := by
  decide +kernel

def repetitionBackwards : Grammar := valueOf _ isOk_defineRepetitionBackwards

theorem compile_permuted_repetition : repetition.Permutes repetitionBackwards ∧
    compile repetition = .ok repetitionTable ∧
    ∃ t', compile repetitionBackwards = .ok t' ∧
      t'.parse (E := Empty) 20 [.ok ⟨0, "x"⟩, .ok ⟨1, "y"⟩] =
        some (.ok (.node 3 4 [.node 3 3 [], .node 4 2 [.leaf ⟨0, "x"⟩], .leaf ⟨1, "y"⟩])) := by
  have hpermutes : repetition.Permutes repetitionBackwards :=
    ⟨by decide +kernel, by decide +kernel, by decide +kernel⟩
  have htable : compile repetition = .ok repetitionTable := eq_ok_valueOf isOk_compile_repetition
  obtain ⟨-, -, hcompile, hsame, -⟩ := compile_permuted hpermutes
  obtain ⟨t', htable'⟩ := hcompile.mp ⟨_, htable⟩
  refine ⟨hpermutes, htable, t', htable', ?_⟩
  rw [(hsame _ _ htable htable').2]
  decide +kernel

end SlrTable

end ShiftReduce
