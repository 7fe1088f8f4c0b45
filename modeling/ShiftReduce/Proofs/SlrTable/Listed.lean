import ShiftReduce.Proofs.SlrTable.Completeness

/-!
# What a row lists

The row of a state lists the symbols that have an action there, each of them once. Behind a path these
are the symbols that some valid item awaits, and those that can follow the head of a rule whose body has
been seen (`SlrTable.Describes.mem_listed_iff`). Nonterminals are among the awaited symbols, for the row
of actions holds the transitions that follow a reduction beside those that a token takes. So what a row
lists is more than what may come next in the input wherever an item awaits a nonterminal.

Terminals that a valid item awaits are shifted one after the other, whatever stands behind them
(`SlrTable.Describes.exists_reaches_of_awaited`).
-/

namespace ShiftReduce

variable {g : Grammar} {sets : FirstFollow} {a : Automaton} {t : SlrTable}

/-! ## Rows -/

theorem Row.mem_symbols_iff {α : Type} {row : Row α} {x : SymbolId} :
    x ∈ row.symbols ↔ ∃ b, row.find? x = some b := by
  rw [Row.symbols, List.mem_map]
  constructor
  · rintro ⟨⟨y, b⟩, hentry, rfl⟩
    exact Row.exists_find?_of_mem (Array.mem_toList_iff.mp hentry)
  · rintro ⟨b, hb⟩
    exact ⟨(x, b), Array.mem_toList_iff.mpr (Row.mem_entries_of_find? hb), rfl⟩

theorem nodup_symbols_of_enterAll {state : StateId} {row row' : Row (Action RuleId)}
    {entries : List (SymbolId × Action RuleId)} (h : enterAll g state row entries = .ok row')
    (distinct : row.symbols.Nodup) : row'.symbols.Nodup := by
  induction entries generalizing row with
  | nil =>
      obtain rfl : row = row' := Except.ok.inj h
      exact distinct
  | cons entry rest ih =>
      rw [enterAll] at h
      cases henter : row.enter entry.1 entry.2 with
      | error old =>
          rw [henter] at h
          cases h
      | ok row₁ =>
          rw [henter] at h
          exact ih h (Row.nodup_symbols_of_enter henter distinct)

namespace SlrTable

theorem nodup_symbols_of_rowsOf {rows rows' : Array (Row (Action RuleId))} {states : List State}
    (h : rowsOf g sets rows states = .ok rows') (distinct : ∀ row ∈ rows, row.symbols.Nodup) :
    ∀ row ∈ rows', row.symbols.Nodup := by
  induction states generalizing rows with
  | nil =>
      obtain rfl : rows = rows' := Except.ok.inj h
      exact distinct
  | cons s rest ih =>
      rw [rowsOf] at h
      cases henter : enterAll g rows.size {} (s.demands g sets) with
      | error e =>
          rw [henter] at h
          cases h
      | ok row =>
          rw [henter] at h
          refine ih h fun row' hrow' => ?_
          rcases Array.mem_push.mp hrow' with hold | rfl
          · exact distinct row' hold
          · exact nodup_symbols_of_enterAll henter List.nodup_nil

/-- The symbols for which a state has an action, in the order of the table. -/
def listed (t : SlrTable) (q : StateId) : List SymbolId := (t.row? q).elim [] Row.symbols

theorem mem_listed_iff_action? {q : StateId} {x : SymbolId} :
    x ∈ t.listed q ↔ ∃ act, t.action? q x = some act := by
  rw [listed, action?]
  cases t.row? q with
  | none => simp
  | some row => exact Row.mem_symbols_iff

/-- No symbol is listed twice. -/
theorem nodup_listed (h : compile g = .ok t) (q : StateId) : (t.listed q).Nodup := by
  obtain ⟨a, -, htable⟩ := compileWith_eq_ok_iff.mp h
  unfold ofAutomaton at htable
  split at htable
  · cases htable
  next rows hrows =>
  obtain rfl := Except.ok.inj htable
  rw [listed, row?]
  cases hrow : rows[q]? with
  | none => exact List.nodup_nil
  | some row => exact nodup_symbols_of_rowsOf hrows nofun row (Array.mem_of_getElem? hrow)

/-! ## Behind a path -/

namespace Describes

variable {σ : List (StateId × Tree SymbolId RuleId)} {q : StateId}

/-- **What a row lists** is what valid items await, nonterminals included, and what can follow the heads
of the rules whose bodies have been seen. -/
theorem mem_listed_iff (h : t.Describes g sets a) (linked : a.Linked σ q) {x : SymbolId} :
    x ∈ t.listed q ↔ (∃ i, g.Valid (stackSymbols σ) i ∧ i.next? g = some x) ∨
      ∃ r rule, g.rule? r = some rule ∧ g.Valid (stackSymbols σ) ⟨r, rule.body.size⟩ ∧
        x ∈ sets.followSet rule.head := by
  rw [mem_listed_iff_action?]
  constructor
  · rintro ⟨act, hact⟩
    cases act with
    | shift j =>
        obtain ⟨i, valid, next, -⟩ := linked.exists_awaits h.serves (h.shift_iff.mp hact)
        exact Or.inl ⟨i, valid, next⟩
    | reduce r =>
        obtain ⟨rule, hr, complete, follows⟩ := (h.reduce_iff linked).mp hact
        exact Or.inr ⟨r, rule, hr, complete, follows⟩
    | accept =>
        obtain ⟨rfl, valid⟩ := (h.accept_iff linked).mp hact
        exact Or.inl ⟨⟨0, 1⟩, valid, rfl⟩
  · rintro (⟨i, valid, next⟩ | ⟨r, rule, hr, complete, follows⟩)
    · by_cases inner : x = g.endOfInput
      · -- only the accepting rule has the end marker in its body
        subst inner
        obtain ⟨r, hr, hx⟩ := Option.bind_eq_some_iff.mp next
        rcases hrule : i.rule with _ | k
        · rcases valid.of_rule_zero hrule with ⟨rfl, -⟩ | ⟨rfl, -⟩
          · exact absurd (Option.some.inj next) g.start_ne_endOfInput
          · exact ⟨.accept, (h.accept_iff linked).mpr ⟨rfl, valid⟩⟩
        · rw [hrule] at hr
          exact absurd rfl (Grammar.ne_endOfInput_of_mem_body (Array.mem_of_getElem? hr)
            (Array.mem_of_getElem? hx))
      · obtain ⟨j, hj⟩ := h.exists_shift linked valid next inner
        exact ⟨.shift j, hj⟩
    · exact ⟨.reduce r, (h.reduce_iff linked).mpr ⟨rule, hr, complete, follows⟩⟩

/-- Tokens that a valid item awaits are shifted, whatever stands behind them. -/
theorem exists_reaches_of_awaited {E : Type} (h : t.Describes g sets a) {w : List (Token SymbolId)}
    (terminals : ∀ l ∈ w, g.IsTerminal l.symbol) {i : Item} {rule : Rule}
    (hr : g.rule? i.rule = some rule)
    (awaited : w.map Token.symbol <+: rule.body.toList.drop i.cursor) (linked : a.Linked σ q)
    (valid : g.Valid (stackSymbols σ) i) (rest : List (Input SymbolId RuleId E)) :
    ∃ σ' q', a.Linked σ' q' ∧ stackSymbols σ' = (w.map Token.symbol).reverse ++ stackSymbols σ ∧
      t.parsing.Reaches w.length (.over q σ (w.map Input.ofToken ++ rest)) (.over q' σ' rest) := by
  induction w generalizing i σ q with
  | nil => exact ⟨σ, q, linked, rfl, .refl _⟩
  | cons l w ih =>
      obtain ⟨hl, hw⟩ := List.forall_mem_cons.mp terminals
      obtain ⟨v, hv⟩ := awaited
      have next : i.next? g = some l.symbol := by
        rw [Item.next?_of_rule? hr, ← List.head?_drop, ← hv]
        rfl
      have hbehind : w.map Token.symbol <+: rule.body.toList.drop i.advance.cursor := by
        refine ⟨v, ?_⟩
        rw [Item.advance, ← List.tail_drop, ← hv]
        rfl
      obtain ⟨j, edge⟩ := linked.exists_transition h.serves valid next hl.ne_endOfInput
      obtain ⟨σ', q', linked', hσ', hreach⟩ := ih hw (i := i.advance) hr hbehind
        (linked.push (t := .leaf l) edge) (valid.advance next hl.ne_endOfInput)
      refine ⟨σ', q', linked', ?_, .head (.shift ?_ (h.shift_iff.mpr edge)) hreach⟩
      · rw [hσ', List.map_cons, List.reverse_cons, List.append_assoc]
        rfl
      · exact ParsingTable.view?_tree (h.not_refuses_leaf hl)

end Describes

end SlrTable

end ShiftReduce
