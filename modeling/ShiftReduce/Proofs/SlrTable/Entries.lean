import ShiftReduce.Proofs.Automaton.ValidItems
import ShiftReduce.Proofs.Grammar.FirstFollow

/-!
# What stands in a table

A table without conflicts has exactly the actions that are demanded (`SlrTable.Describes`). For a
parser, whose stack is a path, the demands are a matter of valid items: shift what a valid item
awaits, reduce a valid item that is complete before a symbol that can follow its head, and accept the
start symbol before the end.
-/

namespace ShiftReduce

variable {g : Grammar} {sets : FirstFollow} {a : Automaton}

/-! ## Demands -/

/-- The actions that the definition of the table asks for in a state with a symbol in view. -/
inductive SlrTable.Demands (g : Grammar) (sets : FirstFollow) (a : Automaton) (i : StateId)
    (x : SymbolId) : Action RuleId → Prop
  | shift {j} (edge : a.transition? i x = some j) : Demands g sets a i x (.shift j)
  | accept {label} (label? : a.label? i = some label) (item : ⟨0, 1⟩ ∈ label)
      (finish : x = g.endOfInput) : Demands g sets a i x .accept
  | reduce {label q r} (label? : a.label? i = some label) (rule : g.rule? q = some r)
      (item : ⟨q, r.body.size⟩ ∈ label) (follows : x ∈ sets.followSet r.head) :
      Demands g sets a i x (.reduce q)

theorem accepts_iff {label : ItemSet} : accepts g label = true ↔ (⟨0, 1⟩ : Item) ∈ label := by
  rw [accepts, List.any_eq_true]
  constructor
  · rintro ⟨⟨rule, cursor⟩, hi, h⟩
    obtain ⟨hrule, hnext⟩ := of_decide_eq_true h
    obtain rfl : rule = 0 := hrule
    have hcursor : cursor = 1 := by
      have hnext : [g.start, g.endOfInput][cursor]? = some g.endOfInput := by
        rw [← hnext, Item.next?_of_rule? (i := ⟨0, cursor⟩) (r := g.acceptRule) rfl]
        rfl
      rcases cursor with _ | _ | cursor
      · exact absurd (Option.some.inj hnext) g.start_ne_endOfInput
      · rfl
      · cases hnext
    rw [hcursor] at hi
    exact hi
  · intro h
    exact ⟨⟨0, 1⟩, h, decide_eq_true ⟨rfl, rfl⟩⟩

theorem mem_reductions {i : Item} {x : SymbolId} {act : Action RuleId} :
    (x, act) ∈ i.reductions g sets ↔ ∃ r, g.rule? i.rule = some r ∧ i.cursor = r.body.size ∧
      x ∈ sets.followSet r.head ∧ act = .reduce i.rule := by
  constructor
  · intro h
    unfold Item.reductions at h
    split at h
    · next complete =>
      obtain ⟨r, hr, hcursor⟩ := Item.isComplete_iff.mp complete
      rw [hr, Option.elim_some] at h
      obtain ⟨y, hy, heq⟩ := List.mem_map.mp h
      obtain ⟨rfl, rfl⟩ := Prod.mk.inj heq
      exact ⟨r, hr, hcursor, OrderedSet.mem_toList.mp hy, rfl⟩
    · cases h
  · rintro ⟨r, hr, hcursor, hx, rfl⟩
    rw [Item.reductions, if_pos (Item.isComplete_iff.mpr ⟨r, hr, hcursor⟩), hr, Option.elim_some]
    exact List.mem_map.mpr ⟨x, OrderedSet.mem_toList.mpr hx, rfl⟩

/-- All that a state demands, in whatever order. -/
theorem mem_demands {s : State} {x : SymbolId} {act : Action RuleId} :
    (x, act) ∈ s.demands g sets ↔
      (∃ j, (x, j) ∈ s.transitions.entries ∧ act = .shift j) ∨
      ((⟨0, 1⟩ : Item) ∈ s.label ∧ x = g.endOfInput ∧ act = .accept) ∨
      ∃ q r, g.rule? q = some r ∧ (⟨q, r.body.size⟩ : Item) ∈ s.label ∧
        x ∈ sets.followSet r.head ∧ act = .reduce q := by
  rw [State.demands, List.mem_append, List.mem_append, or_assoc]
  refine or_congr ?_ (or_congr ?_ ?_)
  · simp only [State.shifts, List.mem_map, Array.mem_toList_iff, Prod.mk.injEq, Prod.exists]
    constructor
    · rintro ⟨y, j, hmem, rfl, rfl⟩
      exact ⟨j, hmem, rfl⟩
    · rintro ⟨j, hmem, rfl⟩
      exact ⟨x, j, hmem, rfl, rfl⟩
  · rw [← accepts_iff (g := g)]
    split
    · next h => simp [h]
    · next h => simp [h]
  · simp only [List.mem_flatMap, OrderedSet.mem_toList, mem_reductions]
    constructor
    · rintro ⟨⟨q, c⟩, hi, r, hr, rfl, hx, rfl⟩
      exact ⟨q, r, hr, hi, hx, rfl⟩
    · rintro ⟨q, r, hr, hi, hx, rfl⟩
      exact ⟨⟨q, r.body.size⟩, hi, r, hr, rfl, hx, rfl⟩

/-! ## Rows -/

theorem Row.mem_entries_of_find? {α : Type} {row : Row α} {x : SymbolId} {b : α}
    (h : row.find? x = some b) : (x, b) ∈ row.entries := by
  obtain ⟨⟨y, _⟩, hy, rfl⟩ := Option.map_eq_some_iff.mp h
  have hkey := Array.find?_some hy
  obtain rfl : y = x := of_decide_eq_true hkey
  exact Array.mem_of_find?_eq_some hy

theorem Row.exists_find?_of_mem {α : Type} {row : Row α} {x : SymbolId} {b : α}
    (h : (x, b) ∈ row.entries) : ∃ b', row.find? x = some b' := by
  rw [← Option.isSome_iff_exists, Row.find?, Option.isSome_map, Array.find?_isSome]
  exact ⟨(x, b), h, decide_eq_true rfl⟩

/-- A row that is filled without conflict has its old entries and the new ones. -/
theorem enterAll_spec {state : StateId} {row row' : Row (Action RuleId)}
    {entries : List (SymbolId × Action RuleId)} (h : enterAll g state row entries = .ok row')
    (x : SymbolId) (act : Action RuleId) :
    row'.find? x = some act ↔ row.find? x = some act ∨ (x, act) ∈ entries := by
  induction entries generalizing row with
  | nil =>
      obtain rfl : row = row' := Except.ok.inj h
      simp
  | cons entry rest ih =>
      obtain ⟨y, act'⟩ := entry
      rw [enterAll] at h
      cases henter : row.enter y act' with
      | error old => rw [henter] at h; cases h
      | ok row₁ =>
          rw [henter] at h
          have hfree := Row.find?_of_enter_eq_ok henter
          rw [ih h, Row.find?_enter henter, List.mem_cons, ← or_assoc]
          refine or_congr_left ?_
          by_cases hx : x = y
          · subst hx
            simp [hfree, eq_comm]
          · simp [hx]

/-- Row after row is filled with what its state demands. -/
theorem rowsOf_spec {rows rows' : Array (Row (Action RuleId))} {states : List State}
    (h : SlrTable.rowsOf g sets rows states = .ok rows') :
    (∀ (i : StateId) row, rows[i]? = some row → rows'[i]? = some row) ∧
      rows'.size = rows.size + states.length ∧
      ∀ (k : Nat) s, states[k]? = some s → ∃ row, rows'[rows.size + k]? = some row ∧
        ∀ x act, row.find? x = some act ↔ (x, act) ∈ s.demands g sets := by
  induction states generalizing rows with
  | nil =>
      obtain rfl : rows = rows' := Except.ok.inj h
      exact ⟨fun _ _ => id, rfl, nofun⟩
  | cons s rest ih =>
      rw [SlrTable.rowsOf] at h
      cases henter : enterAll g rows.size {} (s.demands g sets) with
      | error e => rw [henter] at h; cases h
      | ok row =>
          rw [henter] at h
          obtain ⟨hkept, hsize, hrest⟩ := ih h
          rw [Array.size_push] at hsize hrest
          refine ⟨fun i row' hi => hkept i row' ?_, ?_, fun k s' hs' => ?_⟩
          · rw [Array.getElem?_push, if_neg (Nat.ne_of_lt (Array.getElem?_eq_some_iff.mp hi).1), hi]
          · rw [hsize, List.length_cons]
            omega
          · rcases k with _ | k
            · obtain rfl : s = s' := Option.some.inj hs'
              refine ⟨row, hkept _ _ (by rw [Nat.add_zero, Array.getElem?_push, if_pos rfl]),
                fun x act => ?_⟩
              rw [enterAll_spec henter]
              exact or_iff_right nofun
            · obtain ⟨row', hrow', hfind⟩ := hrest k s' hs'
              exact ⟨row', by rw [← hrow']; congr 1; omega, hfind⟩

/-! ## The table -/

namespace SlrTable

/-- The table belongs to a grammar, its automaton and its sets: it has the actions that these demand
and no others. -/
structure Describes (t : SlrTable) (g : Grammar) (sets : FirstFollow) (a : Automaton) : Prop where
  grammar : t.grammar = g
  serves : a.Serves g
  action?_iff : ∀ i x act, t.action? i x = some act ↔ Demands g sets a i x act

/-- What is demanded in a state is read off its transitions and its label. -/
theorem demands_iff {i : StateId} {s : State} (hs : a.state? i = some s) {x : SymbolId}
    {act : Action RuleId} : Demands g sets a i x act ↔
      (∃ j, s.transitions.find? x = some j ∧ act = .shift j) ∨
      ((⟨0, 1⟩ : Item) ∈ s.label ∧ x = g.endOfInput ∧ act = .accept) ∨
      ∃ q r, g.rule? q = some r ∧ (⟨q, r.body.size⟩ : Item) ∈ s.label ∧
        x ∈ sets.followSet r.head ∧ act = .reduce q := by
  have hlabel : a.label? i = some s.label := by rw [Automaton.label?, hs, Option.map_some]
  have hedge : a.transition? i x = s.transitions.find? x := by
    rw [Automaton.transition?, hs, Option.bind_some]
  constructor
  · intro hdemand
    cases hdemand with
    | @shift j edge => exact Or.inl ⟨j, hedge.symm.trans edge, rfl⟩
    | accept label? item finish =>
        obtain rfl := Option.some.inj (hlabel.symm.trans label?)
        exact Or.inr (Or.inl ⟨item, finish, rfl⟩)
    | reduce label? rule item follows =>
        obtain rfl := Option.some.inj (hlabel.symm.trans label?)
        exact Or.inr (Or.inr ⟨_, _, rule, item, follows, rfl⟩)
  · rintro (⟨j, hj, rfl⟩ | ⟨hitem, rfl, rfl⟩ | ⟨q, r, hr, hitem, hx, rfl⟩)
    · exact .shift (hedge.trans hj)
    · exact .accept hlabel hitem rfl
    · exact .reduce hlabel hr hitem hx

/-- A row with all that a state demands has the demanded actions. -/
theorem find?_iff_demands {i : StateId} {s : State} (hs : a.state? i = some s)
    {row : Row (Action RuleId)}
    (hrow : ∀ x act, row.find? x = some act ↔ (x, act) ∈ s.demands g sets) (x : SymbolId)
    (act : Action RuleId) : row.find? x = some act ↔ Demands g sets a i x act := by
  rw [demands_iff hs]
  constructor
  · intro hfind
    rcases mem_demands.mp ((hrow x act).mp hfind) with ⟨j, hj, rfl⟩ | hother
    · -- as the row of actions holds the symbol but once, so does the row of transitions
      obtain ⟨j', hj'⟩ := Row.exists_find?_of_mem hj
      have hagain := (hrow x (.shift j')).mpr
        (mem_demands.mpr (Or.inl ⟨j', Row.mem_entries_of_find? hj', rfl⟩))
      rw [hfind] at hagain
      cases hagain
      exact Or.inl ⟨j, hj', rfl⟩
    · exact Or.inr hother
  · intro hdemand
    refine (hrow x act).mpr (mem_demands.mpr (hdemand.imp_left ?_))
    rintro ⟨j, hj, rfl⟩
    exact ⟨j, Row.mem_entries_of_find? hj, rfl⟩

theorem Demands.exists_state {i : StateId} {x : SymbolId} {act : Action RuleId}
    (h : Demands g sets a i x act) : ∃ s, a.state? i = some s := by
  cases h with
  | shift edge =>
      obtain ⟨s, hs, -⟩ := Option.bind_eq_some_iff.mp edge
      exact ⟨s, hs⟩
  | accept label? item finish =>
      obtain ⟨s, hs, -⟩ := Option.map_eq_some_iff.mp label?
      exact ⟨s, hs⟩
  | reduce label? rule item follows =>
      obtain ⟨s, hs, -⟩ := Option.map_eq_some_iff.mp label?
      exact ⟨s, hs⟩

/-- The table of an automaton has what is demanded. -/
theorem action?_iff_of_ofAutomaton {t : SlrTable} (h : ofAutomaton g a sets = .ok t) (i : StateId)
    (x : SymbolId) (act : Action RuleId) :
    t.action? i x = some act ↔ Demands g sets a i x act := by
  unfold ofAutomaton at h
  split at h
  · cases h
  next rows hrows =>
  obtain rfl := Except.ok.inj h
  obtain ⟨-, hsize, hfill⟩ := rowsOf_spec hrows
  rw [Array.length_toList, show (#[] : Array (Row (Action RuleId))).size = 0 from rfl,
    Nat.zero_add] at hsize
  have hstate : ∀ i s, a.state? i = some s → ∃ row, rows[i]? = some row ∧
      ∀ x act, row.find? x = some act ↔ Demands g sets a i x act := by
    intro i s hs
    obtain ⟨row, hrow, hdemands⟩ := hfill i s (by rw [Array.getElem?_toList]; exact hs)
    rw [show (#[] : Array (Row (Action RuleId))).size + i = i from Nat.zero_add i] at hrow
    exact ⟨row, hrow, find?_iff_demands hs hdemands⟩
  constructor
  · intro hact
    obtain ⟨row, hrow, hfind⟩ := Option.bind_eq_some_iff.mp hact
    have hlt : i < a.states.size := hsize ▸ (Array.getElem?_eq_some_iff.mp hrow).1
    obtain ⟨row', hrow', hdemands⟩ := hstate i _ (Array.getElem?_eq_getElem hlt)
    obtain rfl : row = row' := Option.some.inj (hrow.symm.trans hrow')
    exact (hdemands x act).mp hfind
  · intro hdemand
    obtain ⟨s, hs⟩ := hdemand.exists_state
    obtain ⟨row, hrow, hdemands⟩ := hstate i s hs
    exact Option.bind_eq_some_iff.mpr ⟨row, hrow, (hdemands x act).mpr hdemand⟩

theorem grammar_of_ofAutomaton {t : SlrTable} (h : ofAutomaton g a sets = .ok t) :
    t.grammar = g := by
  unfold ofAutomaton at h
  split at h
  · cases h
  · obtain rfl := Except.ok.inj h
    rfl

theorem compileWith_eq_ok_iff {t : SlrTable} : compileWith g sets = .ok t ↔
    ∃ a, Automaton.build g = .ok a ∧ ofAutomaton g a sets = .ok t := by
  unfold compileWith
  cases Automaton.build g with
  | error e => simp
  | ok a => simp

/-- **A table has what is demanded.** -/
theorem describes_of_compileWith {t : SlrTable} (h : compileWith g sets = .ok t) :
    ∃ a, t.Describes g sets a := by
  obtain ⟨a, hbuild, htable⟩ := compileWith_eq_ok_iff.mp h
  exact ⟨a, grammar_of_ofAutomaton htable, Automaton.serves_of_build hbuild,
    action?_iff_of_ofAutomaton htable⟩

/-! ## Actions behind a path -/

namespace Describes

variable {t : SlrTable} {σ : List (StateId × Tree SymbolId RuleId)} {q : StateId} {x : SymbolId}

theorem shift_iff (h : t.Describes g sets a) {j : StateId} :
    t.action? q x = some (.shift j) ↔ a.transition? q x = some j := by
  rw [h.action?_iff]
  constructor
  · rintro ⟨edge⟩
    exact edge
  · exact .shift

/-- What a valid item awaits is shifted. -/
theorem exists_shift (h : t.Describes g sets a) (linked : a.Linked σ q) {i : Item}
    (valid : g.Valid (stackSymbols σ) i) (next : i.next? g = some x)
    (inner : x ≠ g.endOfInput) : ∃ j, t.action? q x = some (.shift j) := by
  obtain ⟨j, hj⟩ := linked.exists_transition h.serves valid next inner
  exact ⟨j, h.shift_iff.mpr hj⟩

theorem reduce_iff (h : t.Describes g sets a) (linked : a.Linked σ q) {r : RuleId} :
    t.action? q x = some (.reduce r) ↔ ∃ rule, g.rule? r = some rule ∧
      g.Valid (stackSymbols σ) ⟨r, rule.body.size⟩ ∧ x ∈ sets.followSet rule.head := by
  rw [h.action?_iff]
  constructor
  · intro hdemand
    cases hdemand with
    | reduce label? rule item follows =>
        exact ⟨_, rule, (linked.mem_label_iff h.serves label?).mp item, follows⟩
  · rintro ⟨rule, hrule, valid, follows⟩
    obtain ⟨items, hlabel⟩ := linked.exists_label h.serves
    exact .reduce hlabel hrule ((linked.mem_label_iff h.serves hlabel).mpr valid) follows

theorem accept_iff (h : t.Describes g sets a) (linked : a.Linked σ q) :
    t.action? q x = some .accept ↔ x = g.endOfInput ∧ g.Valid (stackSymbols σ) ⟨0, 1⟩ := by
  rw [h.action?_iff]
  constructor
  · intro hdemand
    cases hdemand with
    | accept label? item finish =>
        exact ⟨finish, (linked.mem_label_iff h.serves label?).mp item⟩
  · rintro ⟨finish, valid⟩
    obtain ⟨items, hlabel⟩ := linked.exists_label h.serves
    exact .accept hlabel ((linked.mem_label_iff h.serves hlabel).mpr valid) finish

/-- Only given rules are reduced. The body is on top of the stack, and behind what is below it a valid
item awaits the head. -/
theorem exists_body_of_reduce (h : t.Describes g sets a) (linked : a.Linked σ q) {r : RuleId}
    (action : t.action? q x = some (.reduce r)) :
    ∃ k rule popped below i, r = k + 1 ∧ g.rule? (k + 1) = some rule ∧ σ = popped ++ below ∧
      stackSymbols popped = rule.body.toList.reverse ∧ g.Valid (stackSymbols below) i ∧
      i.next? g = some rule.head := by
  obtain ⟨rule, hr, valid, -⟩ := (h.reduce_iff linked).mp action
  rcases r with _ | k
  · -- the accepting rule would need an item behind the end marker
    obtain rfl : g.acceptRule = rule := Option.some.inj hr
    rcases valid.of_rule_zero rfl with ⟨hi, -⟩ | ⟨hi, -⟩
    · exact absurd (congrArg Item.cursor hi) (show (2 : Nat) ≠ 0 by decide)
    · exact absurd (congrArg Item.cursor hi) (show (2 : Nat) ≠ 1 by decide)
  · obtain ⟨γ, hγ, begun⟩ := valid.spells hr
    rw [← Array.length_toList, List.take_length] at hγ
    obtain ⟨popped, below, rfl, hpopped, rfl⟩ := List.map_eq_append_iff.mp hγ
    obtain ⟨i, hi, awaits⟩ := begun.exists_awaits hr
    obtain ⟨next, -⟩ := Item.awaits?_eq_some_iff.mp awaits
    exact ⟨k, rule, popped, below, i, rfl, hr, rfl, hpopped, hi, next⟩

/-- What is accepted is one tree of the start symbol, before the end. -/
theorem exists_root_of_accept (h : t.Describes g sets a) (linked : a.Linked σ q)
    (action : t.action? q x = some .accept) :
    x = g.endOfInput ∧ ∃ p root, σ = [(p, root)] ∧ root.symbol = g.start := by
  obtain ⟨finish, valid⟩ := (h.accept_iff linked).mp action
  refine ⟨finish, ?_⟩
  rcases valid.of_rule_zero rfl with ⟨hi, -⟩ | ⟨-, hσ⟩
  · cases hi
  · obtain ⟨⟨p, root⟩, σ', rfl, hroot, hσ'⟩ := List.map_eq_cons_iff.mp hσ
    obtain rfl : σ' = [] := List.map_eq_nil_iff.mp hσ'
    exact ⟨p, root, rfl, hroot⟩

end Describes

end SlrTable

end ShiftReduce
