import Mathlib.Data.List.Nodup
import ShiftReduce.Proofs.Grammar.Derivation
import ShiftReduce.Proofs.SlrTable.Entries

/-!
# Conflicts

A place in a table is taken by the first action that is entered there. Whatever is entered next counts
as a conflict, and nobody looks whether the two actions differ. They do: the shifts of a state are on
different symbols, it accepts once, and its reductions are by different items or before different
symbols, so that no state demands one action twice (`State.nodup_demands`). Hence a conflict is
reported exactly where two actions are demanded, and in the first state that has such a place
(`SlrTable.ofAutomaton_exact`). Nothing is assumed of the sets: they may be unfinished.
-/

namespace ShiftReduce

variable {g : Grammar} {sets : FirstFollow} {a : Automaton}

/-! ## Nothing is demanded twice -/

theorem State.nodup_shifts {s : State} (distinct : s.transitions.symbols.Nodup) :
    s.shifts.Nodup := by
  have hkeys : s.shifts.map Prod.fst = s.transitions.symbols := by
    unfold State.shifts Row.symbols
    rw [List.map_map]
    rfl
  rw [← hkeys] at distinct
  exact distinct.of_map Prod.fst

theorem Item.nodup_reductions (i : Item) : (i.reductions g sets).Nodup := by
  unfold Item.reductions
  split
  · next complete =>
    obtain ⟨r, hr, -⟩ := Item.isComplete_iff.mp complete
    rw [hr, Option.elim_some]
    refine (sets.followSet r.head).nodup_toList.map ?_
    intro x y hxy
    exact (Prod.mk.inj hxy).1
  · exact List.nodup_nil

/-- Two items of a label demand different reductions. -/
theorem Item.disjoint_reductions {i j : Item} (hne : i ≠ j) :
    (i.reductions g sets).Disjoint (j.reductions g sets) := by
  rintro ⟨x, act⟩ hi hj
  obtain ⟨r, hr, hcursor, -, rfl⟩ := mem_reductions.mp hi
  obtain ⟨r', hr', hcursor', -, hact⟩ := mem_reductions.mp hj
  have hrule : i.rule = j.rule := Action.reduce.inj hact
  rw [hrule, hr'] at hr
  obtain rfl : r' = r := Option.some.inj hr
  apply hne
  cases i
  cases j
  exact congrArg₂ Item.mk hrule (hcursor.trans hcursor'.symm)

/-- **No state demands an action twice.** -/
theorem State.nodup_demands {s : State} (distinct : s.transitions.symbols.Nodup) :
    (s.demands g sets).Nodup := by
  have hreductions : (s.label.toList.flatMap (·.reductions g sets)).Nodup := by
    refine List.nodup_flatMap.mpr ⟨fun i _ => i.nodup_reductions, ?_⟩
    exact s.label.nodup_toList.imp Item.disjoint_reductions
  have hshift : ∀ entry ∈ s.shifts, ∃ j, entry.2 = .shift j := by
    intro entry hentry
    obtain ⟨⟨x, j⟩, -, rfl⟩ := List.mem_map.mp hentry
    exact ⟨j, rfl⟩
  have hreduce : ∀ entry ∈ s.label.toList.flatMap (·.reductions g sets),
      ∃ q, entry.2 = .reduce q := by
    rintro ⟨x, act⟩ hentry
    obtain ⟨i, -, hi⟩ := List.mem_flatMap.mp hentry
    obtain ⟨r, -, -, -, hact⟩ := mem_reductions.mp hi
    exact ⟨i.rule, hact⟩
  unfold State.demands
  split
  · refine ((nodup_shifts distinct).append (List.nodup_singleton _) ?_).append hreductions ?_
    · intro entry h₁ h₂
      obtain ⟨j, hj⟩ := hshift entry h₁
      rw [List.mem_singleton.mp h₂] at hj
      cases hj
    · intro entry h₁ h₂
      obtain ⟨q, hq⟩ := hreduce entry h₂
      rcases List.mem_append.mp h₁ with h₁ | h₁
      · obtain ⟨j, hj⟩ := hshift entry h₁
        cases hj.symm.trans hq
      · rw [List.mem_singleton.mp h₁] at hq
        cases hq
  · rw [List.append_nil]
    refine (nodup_shifts distinct).append hreductions ?_
    intro entry h₁ h₂
    obtain ⟨j, hj⟩ := hshift entry h₁
    obtain ⟨q, hq⟩ := hreduce entry h₂
    cases hj.symm.trans hq

/-- In a row without repetitions each entry is found. -/
theorem Row.find?_eq_some_iff_mem {α : Type} {row : Row α} (distinct : row.symbols.Nodup)
    {x : SymbolId} {b : α} : row.find? x = some b ↔ (x, b) ∈ row.entries := by
  constructor
  · exact mem_entries_of_find?
  · intro hmem
    obtain ⟨b', hb'⟩ := exists_find?_of_mem hmem
    have hmem' := mem_entries_of_find? hb'
    have heq : ((x, b') : SymbolId × α) = (x, b) :=
      List.inj_on_of_nodup_map distinct hmem'.val hmem.val rfl
    rw [hb', (Prod.mk.inj heq).2]

/-! ## Rows that cannot be filled -/

/-- Where different actions are entered into a row, one that finds its place taken differs from what is
there. -/
theorem enterAll_eq_error {state : StateId} {row : Row (Action RuleId)}
    {entries : List (SymbolId × Action RuleId)} {e : TableError} (nodup : entries.Nodup)
    (fresh : ∀ x act, row.find? x = some act → (x, act) ∉ entries)
    (h : enterAll g state row entries = .error e) :
    ∃ x old new, e = .conflict state x (g.nameOf x) old new ∧ old ≠ new ∧
      (row.find? x = some old ∨ (x, old) ∈ entries) ∧ (x, new) ∈ entries := by
  induction entries generalizing row with
  | nil => cases h
  | cons entry rest ih =>
      obtain ⟨y, act⟩ := entry
      obtain ⟨hnot, hrest⟩ := List.nodup_cons.mp nodup
      rw [enterAll] at h
      cases henter : row.enter y act with
      | error old =>
          rw [henter] at h
          have hold := Row.find?_of_enter_eq_error henter
          refine ⟨y, old, act, (Except.error.inj h).symm, ?_, Or.inl hold, List.mem_cons_self⟩
          rintro rfl
          exact fresh y old hold List.mem_cons_self
      | ok row₁ =>
          rw [henter] at h
          have hfind := Row.find?_enter henter
          have hfresh : ∀ x act', row₁.find? x = some act' → (x, act') ∉ rest := by
            intro x act' hx
            rw [hfind] at hx
            split at hx
            · next heq =>
              obtain rfl : act = act' := Option.some.inj hx
              rw [heq]
              exact hnot
            · exact fun hmem => fresh x act' hx (List.mem_cons_of_mem _ hmem)
          obtain ⟨x, old, new, he, hne, hold, hnew⟩ := ih hrest hfresh h
          refine ⟨x, old, new, he, hne, ?_, List.mem_cons_of_mem _ hnew⟩
          rcases hold with hold | hold
          · rw [hfind] at hold
            split at hold
            · next heq =>
              obtain rfl : act = old := Option.some.inj hold
              rw [heq]
              exact Or.inr List.mem_cons_self
            · exact Or.inl hold
          · exact Or.inr (List.mem_cons_of_mem _ hold)

/-- The rows are given up at the first that cannot be filled. -/
theorem rowsOf_eq_error {rows : Array (Row (Action RuleId))} {states : List State} {e : TableError}
    (h : SlrTable.rowsOf g sets rows states = .error e) :
    ∃ (k : Nat) (s : State), states[k]? = some s ∧
      enterAll g (rows.size + k) {} (s.demands g sets) = .error e ∧
      ∀ (j : Nat) (s' : State), j < k → states[j]? = some s' →
        ∃ row, enterAll g (rows.size + j) {} (s'.demands g sets) = .ok row := by
  induction states generalizing rows with
  | nil => cases h
  | cons s rest ih =>
      rw [SlrTable.rowsOf] at h
      cases henter : enterAll g rows.size {} (s.demands g sets) with
      | error e' =>
          rw [henter] at h
          obtain rfl := Except.error.inj h
          exact ⟨0, s, rfl, henter, fun j s' hj => absurd hj (Nat.not_lt_zero j)⟩
      | ok row =>
          rw [henter] at h
          obtain ⟨k, s₁, hs₁, herror, hbefore⟩ := ih h
          have hshift : ∀ j, (rows.push row).size + j = rows.size + (j + 1) := by
            intro j
            rw [Array.size_push]
            omega
          refine ⟨k + 1, s₁, hs₁, hshift k ▸ herror, ?_⟩
          intro j s' hj hs'
          cases j with
          | zero =>
              obtain rfl : s = s' := Option.some.inj hs'
              exact ⟨row, henter⟩
          | succ j =>
              rw [← hshift j]
              exact hbefore j s' (Nat.lt_of_succ_lt_succ hj) hs'

/-! ## The table -/

namespace SlrTable

/-- Two different actions are demanded in one place. -/
structure IsConflict (g : Grammar) (sets : FirstFollow) (a : Automaton) (i : StateId)
    (x : SymbolId) (old new : Action RuleId) : Prop where
  existing : Demands g sets a i x old
  incoming : Demands g sets a i x new
  different : old ≠ new

theorem mem_demands_iff {i : StateId} {s : State} (hs : a.state? i = some s)
    (distinct : s.transitions.symbols.Nodup) {x : SymbolId} {act : Action RuleId} :
    (x, act) ∈ s.demands g sets ↔ Demands g sets a i x act := by
  rw [mem_demands, demands_iff hs]
  simp only [Row.find?_eq_some_iff_mem distinct]

/-- A state whose row can be filled has no conflict. -/
theorem not_isConflict_of_enterAll {i : StateId} {s : State} (hs : a.state? i = some s)
    (distinct : s.transitions.symbols.Nodup) {row : Row (Action RuleId)}
    (h : enterAll g i {} (s.demands g sets) = .ok row) (x : SymbolId) (old new : Action RuleId) :
    ¬IsConflict g sets a i x old new := by
  rintro ⟨existing, incoming, different⟩
  have hold := (enterAll_spec h x old).mpr (Or.inr ((mem_demands_iff hs distinct).mpr existing))
  have hnew := (enterAll_spec h x new).mpr (Or.inr ((mem_demands_iff hs distinct).mpr incoming))
  exact different (Option.some.inj (hold.symm.trans hnew))

/-- A table has no two actions in one place. -/
theorem not_isConflict_of_ofAutomaton {t : SlrTable} (h : ofAutomaton g a sets = .ok t) (i : StateId)
    (x : SymbolId) (old new : Action RuleId) : ¬IsConflict g sets a i x old new := by
  rintro ⟨existing, incoming, different⟩
  have hold := (action?_iff_of_ofAutomaton h i x old).mpr existing
  have hnew := (action?_iff_of_ofAutomaton h i x new).mpr incoming
  exact different (Option.some.inj (hold.symm.trans hnew))

/-- What is reported is a conflict, and no earlier state has one. -/
theorem isConflict_of_ofAutomaton (hbuild : Automaton.build g = .ok a) {e : TableError}
    (h : ofAutomaton g a sets = .error e) :
    ∃ i x old new, e = .conflict i x (g.nameOf x) old new ∧ IsConflict g sets a i x old new ∧
      ∀ j < i, ∀ y old' new', ¬IsConflict g sets a j y old' new' := by
  unfold ofAutomaton at h
  split at h
  · next e' hrows =>
    obtain rfl := Except.error.inj h
    obtain ⟨i, s, hs, herror, hbefore⟩ := rowsOf_eq_error hrows
    have hzero : ∀ j : Nat, (#[] : Array (Row (Action RuleId))).size + j = j := Nat.zero_add
    simp only [Array.getElem?_toList, hzero] at hs herror hbefore
    have distinct := Automaton.nodup_symbols_of_build hbuild hs
    have hfresh : ∀ y act, ({} : Row (Action RuleId)).find? y = some act →
        (y, act) ∉ s.demands g sets := by
      intro y act hy
      rw [Row.find?_empty] at hy
      cases hy
    obtain ⟨x, old, new, he, hne, hold, hnew⟩ :=
      enterAll_eq_error (State.nodup_demands distinct) hfresh herror
    have hold := hold.resolve_left nofun
    refine ⟨i, x, old, new, he, ⟨?_, ?_, hne⟩, ?_⟩
    · exact (mem_demands_iff hs distinct).mp hold
    · exact (mem_demands_iff hs distinct).mp hnew
    · intro j hj y old' new' hconflict
      obtain ⟨s', hs'⟩ := hconflict.existing.exists_state
      obtain ⟨row, hrow⟩ := hbefore j s' hj hs'
      exact not_isConflict_of_enterAll hs' (Automaton.nodup_symbols_of_build hbuild hs') hrow
        y old' new' hconflict
  · cases h

/-- Some place of the state is demanded for two actions. -/
def Conflicted (g : Grammar) (sets : FirstFollow) (a : Automaton) (i : StateId) : Prop :=
  ∃ x old new, IsConflict g sets a i x old new

theorem exists_ofAutomaton_iff (hbuild : Automaton.build g = .ok a) :
    (∃ t, ofAutomaton g a sets = .ok t) ↔ ∀ i, ¬ Conflicted g sets a i := by
  constructor
  · rintro ⟨t, ht⟩ i ⟨x, old, new, hconflict⟩
    exact not_isConflict_of_ofAutomaton ht i x old new hconflict
  · intro hnone
    cases htable : ofAutomaton g a sets with
    | ok t => exact ⟨t, rfl⟩
    | error e =>
        obtain ⟨i, x, old, new, -, hconflict, -⟩ := isConflict_of_ofAutomaton hbuild htable
        exact absurd ⟨x, old, new, hconflict⟩ (hnone i)

/-- The state that is reported is the first one with a conflict. -/
theorem exists_conflict_iff (hbuild : Automaton.build g = .ok a) {i : StateId} :
    (∃ x name old new, ofAutomaton g a sets = .error (.conflict i x name old new)) ↔
      Conflicted g sets a i ∧ ∀ j < i, ¬ Conflicted g sets a j := by
  constructor
  · rintro ⟨x, name, old, new, herror⟩
    obtain ⟨i', x', old', new', he, hconflict, hfirst⟩ := isConflict_of_ofAutomaton hbuild herror
    obtain ⟨rfl, rfl, -, rfl, rfl⟩ := TableError.conflict.inj he
    refine ⟨⟨x, old, new, hconflict⟩, ?_⟩
    rintro j hj ⟨y, old', new', hconflict'⟩
    exact hfirst j hj y old' new' hconflict'
  · rintro ⟨hconflicted, hfirst⟩
    cases htable : ofAutomaton g a sets with
    | ok t => exact absurd hconflicted ((exists_ofAutomaton_iff hbuild).mp ⟨t, htable⟩ i)
    | error e =>
        obtain ⟨i', x, old, new, rfl, hconflict, hfirst'⟩ := isConflict_of_ofAutomaton hbuild htable
        have hle : i ≤ i' := Nat.not_lt.mp fun hlt => hfirst i' hlt ⟨x, old, new, hconflict⟩
        have hge : i' ≤ i := by
          obtain ⟨y, old', new', hconflict'⟩ := hconflicted
          exact Nat.not_lt.mp fun hlt => hfirst' i hlt y old' new' hconflict'
        obtain rfl := Nat.le_antisymm hle hge
        exact ⟨x, _, old, new, rfl⟩

/-- **Conflicts are reported if they are real.** Whatever the sets, there is a table exactly if no place
is demanded for two actions, and the table has the demanded actions and no others. Else the first state
with such a place is named, with a symbol and the two actions. -/
theorem ofAutomaton_exact (hbuild : Automaton.build g = .ok a) (sets : FirstFollow) :
    ((∃ t, ofAutomaton g a sets = .ok t) ↔ ∀ i x old new, ¬IsConflict g sets a i x old new) ∧
      (∀ t, ofAutomaton g a sets = .ok t →
        ∀ i x act, t.action? i x = some act ↔ Demands g sets a i x act) ∧
      ∀ e, ofAutomaton g a sets = .error e → ∃ i x old new,
        e = .conflict i x (g.nameOf x) old new ∧ IsConflict g sets a i x old new ∧
          ∀ j < i, ∀ y old' new', ¬IsConflict g sets a j y old' new' := by
  refine ⟨⟨?_, ?_⟩, fun t ht => action?_iff_of_ofAutomaton ht, fun e he => ?_⟩
  · rintro ⟨t, ht⟩ i x old new ⟨existing, incoming, different⟩
    have hold := (action?_iff_of_ofAutomaton ht i x old).mpr existing
    have hnew := (action?_iff_of_ofAutomaton ht i x new).mpr incoming
    exact different (Option.some.inj (hold.symm.trans hnew))
  · intro hnone
    cases htable : ofAutomaton g a sets with
    | ok t => exact ⟨t, rfl⟩
    | error e =>
        obtain ⟨i, x, old, new, -, hconflict, -⟩ := isConflict_of_ofAutomaton hbuild htable
        exact absurd hconflict (hnone i x old new)
  · exact isConflict_of_ofAutomaton hbuild he

/-- Sums of numbers that may be read from either side. -/
def defineSums : DefinitionM Unit := do
  let number ← .terminal "number"
  let plus ← .terminal "plus"
  let _ ← .endOfInput "end"
  let sum ← .nonterminal "SUM"
  let _ ← .rule "ADD" sum [sum, plus, sum]
  let _ ← .rule "ONE" sum [number]

theorem isOk_defineSums : (Grammar.define defineSums).isOk = true := by decide +kernel

def sums : Grammar := valueOf _ isOk_defineSums

theorem isOk_build_sums : (Automaton.build sums).isOk = true := by decide +kernel

/-- After two summands `plus` could be shifted, and the two could be reduced. -/
theorem ofAutomaton_sums : ∃ a, Automaton.build sums = .ok a ∧
    ofAutomaton sums a (.ofSteps sums [.nullable, .first, .follow]) =
      .error (.conflict 4 1 "plus" (.shift 3) (.reduce 1)) ∧
    IsConflict sums (.ofSteps sums [.nullable, .first, .follow]) a 4 1 (.shift 3) (.reduce 1) := by
  have hbuild := eq_ok_valueOf isOk_build_sums
  have hreport : (ofAutomaton sums (valueOf _ isOk_build_sums)
      (.ofSteps sums [.nullable, .first, .follow])).map (fun _ => ()) =
        .error (.conflict 4 1 "plus" (.shift 3) (.reduce 1)) := by
    decide +kernel
  obtain ⟨-, -, hexact⟩ := ofAutomaton_exact hbuild (.ofSteps sums [.nullable, .first, .follow])
  cases htable : ofAutomaton sums (valueOf _ isOk_build_sums)
      (.ofSteps sums [.nullable, .first, .follow]) with
  | ok t =>
      rw [htable] at hreport
      cases hreport
  | error e =>
      rw [htable] at hreport
      obtain ⟨i, x, old, new, he, hconflict, -⟩ := hexact e htable
      obtain rfl : e = _ := Except.error.inj hreport
      obtain ⟨rfl, rfl, -, rfl, rfl⟩ := TableError.conflict.inj he
      exact ⟨_, hbuild, htable, hconflict⟩

end SlrTable

end ShiftReduce
