import ShiftReduce.Proofs.Automaton.Discovery
import ShiftReduce.Proofs.Automaton.Overflow

/-!
# Cursors and the number of states

A cursor moves on by one place from a state to the next, so in the state with the number `j` no cursor is
behind the place `j` (`Explored.cursor_le`). A cursor can come to its last place in the last state only
for which there is a number. It has then moved at every step from one state to the next, and there are no
states besides these. In particular the start has one successor, which the accepting rule needs behind
the start symbol, and all rules that begin there begin with the start symbol.

So the limits of cursors and of states are one place apart: a body that is too long for a cursor is too
long for the states as well, unless it is of a rule of the start symbol that begins with this symbol
itself (`Automaton.build_outcome`). In this case the construction may break off in the last state
(`Automaton.build_stretched_breaks_off`).
-/

namespace ShiftReduce

variable {g : Grammar}

/-! ## Where the items of a label come from -/

theorem cursor_eq_zero_of_mem_startLabel {i : Item} (h : i ∈ Automaton.startLabel g) :
    i.cursor = 0 := by
  rw [Automaton.startLabel, mem_closure_iff] at h
  cases h with
  | given h =>
      obtain rfl := List.mem_singleton.mp h
      rfl
  | predict h awaits rule => rfl

/-- A cursor that has moved was in the label before. -/
theorem mem_of_succ_mem_goto {label : ItemSet} {x : SymbolId} {q : RuleId} {c : Nat}
    (h : ⟨q, c + 1⟩ ∈ goto g label x) : ⟨q, c⟩ ∈ label ∧ Item.next? g ⟨q, c⟩ = some x := by
  rw [goto, mem_closure_iff] at h
  generalize hi : (⟨q, c + 1⟩ : Item) = i at h
  cases h with
  | given h =>
      obtain ⟨⟨q', c'⟩, hk, rfl⟩ := List.mem_map.mp h
      cases hi
      exact mem_awaiting.mp hk
  | predict h awaits rule => cases hi

theorem advance_mem_goto {label : ItemSet} {x : SymbolId} {i : Item} (h : i ∈ label)
    (next : i.next? g = some x) : i.advance ∈ goto g label x :=
  mem_closure_iff.mpr (.given (List.mem_map_of_mem (mem_awaiting.mpr ⟨h, next⟩)))

namespace Explored

variable {r : Registry} {rows : Array (Row StateId)}

/-- A label but the first is where `goto` leads to from an earlier one. -/
theorem exists_goto (h : Explored g r rows) {j : Nat} {label : ItemSet} (hpos : 0 < j)
    (hlabel : r.labels[j]? = some label) :
    ∃ (p : Nat) (label' : ItemSet) (x : SymbolId), p < j ∧ r.labels[p]? = some label' ∧
      label = goto g label' x := by
  obtain ⟨p, x, hp, hedge⟩ := h.order.found j hpos (Array.getElem?_eq_some_iff.mp hlabel).1
  obtain ⟨row, hrow, hfind⟩ := Option.bind_eq_some_iff.mp hedge
  obtain ⟨label', hlabel', serves⟩ := h.serves p row hrow
  have htarget := (serves.sound x j hfind).2
  exact ⟨p, label', x, hp, hlabel', Option.some.inj (hlabel.symm.trans htarget)⟩

/-- **No cursor is ahead of its state.** -/
theorem cursor_le (h : Explored g r rows) {j : Nat} {label : ItemSet} {i : Item}
    (hlabel : r.labels[j]? = some label) (hi : i ∈ label) : i.cursor ≤ j := by
  induction j using Nat.strongRecOn generalizing label i with
  | ind j ih =>
      rcases Nat.eq_zero_or_pos j with rfl | hpos
      · obtain rfl := Option.some.inj (h.start.symm.trans hlabel)
        exact Nat.le_of_eq (cursor_eq_zero_of_mem_startLabel hi)
      · obtain ⟨p, label', x, hp, hlabel', rfl⟩ := h.exists_goto hpos hlabel
        obtain ⟨q, c⟩ := i
        rcases c with _ | c
        · exact Nat.zero_le j
        · have hle : c ≤ p := ih p hp hlabel' (mem_of_succ_mem_goto hi).1
          exact Nat.lt_of_le_of_lt hle hp

/-- A cursor that is as far as its state has been so in all states before. -/
theorem exists_mem_of_cursor_eq (h : Explored g r rows) {j : Nat} {label : ItemSet} {q : RuleId}
    (hlabel : r.labels[j]? = some label) (hmem : ⟨q, j⟩ ∈ label) {k : Nat} (hk : k ≤ j) :
    ∃ label', r.labels[k]? = some label' ∧ ⟨q, k⟩ ∈ label' := by
  induction j generalizing label with
  | zero =>
      obtain rfl := Nat.le_zero.mp hk
      exact ⟨label, hlabel, hmem⟩
  | succ j ih =>
      rcases Nat.lt_or_eq_of_le hk with hlt | rfl
      · obtain ⟨p, label', x, hp, hlabel', rfl⟩ := h.exists_goto (Nat.succ_pos j) hlabel
        -- the item before it is in a state that is not before the place of its cursor
        obtain ⟨hi, -⟩ := mem_of_succ_mem_goto hmem
        obtain rfl : p = j := Nat.le_antisymm (Nat.le_of_lt_succ hp) (h.cursor_le hlabel' hi)
        exact ih hlabel' hi (Nat.le_of_lt_succ hlt)
      · exact ⟨label, hlabel, hmem⟩

end Explored

/-! ## A cursor as far as the last state -/

/-- In the last state so far, a rule has its cursor at the place that is the number of the state. -/
structure Registry.Stretches (r : Registry) (q : RuleId) (j : Nat) : Prop where
  cursor : ∃ label, r.labels[j]? = some label ∧ ⟨q, j⟩ ∈ label
  last : r.labels.size ≤ j + 1

namespace Explored

variable {r : Registry} {rows : Array (Row StateId)} {j : Nat} {q : RuleId}

theorem exists_mem_of_stretches (h : Explored g r rows) (stretches : r.Stretches q j) {k : Nat}
    (hk : k ≤ j) : ∃ label, r.labels[k]? = some label ∧ ⟨q, k⟩ ∈ label := by
  obtain ⟨label, hlabel, hmem⟩ := stretches.cursor
  exact h.exists_mem_of_cursor_eq hlabel hmem hk

/-- All symbols lead from the start to the second state. -/
theorem goto_startLabel (h : Explored g r rows) (stretches : r.Stretches q j)
    (hrows : 0 < rows.size) {y : SymbolId}
    (hy : y ∈ awaitedSymbols g (Automaton.startLabel g)) :
    r.labels[1]? = some (goto g (Automaton.startLabel g) y) := by
  obtain ⟨label, hlabel, serves⟩ := h.serves 0 _ (Array.getElem?_eq_getElem hrows)
  obtain rfl := Option.some.inj (h.start.symm.trans hlabel)
  obtain ⟨k, hk⟩ := serves.complete y hy
  obtain ⟨-, htarget⟩ := serves.sound y k hk
  rcases k with _ | _ | k
  · -- the start label has no cursor that has moved
    obtain ⟨i, hi, next⟩ := (mem_awaitedSymbols.mp hy).1
    have hadvance := advance_mem_goto hi next
    rw [← Option.some.inj (h.start.symm.trans htarget)] at hadvance
    cases cursor_eq_zero_of_mem_startLabel hadvance
  · exact htarget
  · -- in a later state there is a cursor that has moved twice
    have hlt := (Array.getElem?_eq_some_iff.mp htarget).1
    have hlast := stretches.last
    obtain ⟨label', hlabel', hmem⟩ := h.exists_mem_of_stretches stretches (k := k + 2) (by omega)
    obtain rfl := Option.some.inj (htarget.symm.trans hlabel')
    cases cursor_eq_zero_of_mem_startLabel (mem_of_succ_mem_goto hmem).1

/-- The start awaits the start symbol and nothing else. -/
theorem eq_start_of_awaited (h : Explored g r rows) (stretches : r.Stretches q j)
    (hrows : 0 < rows.size) {y : SymbolId}
    (hy : y ∈ awaitedSymbols g (Automaton.startLabel g)) : y = g.start := by
  have hinitial : Item.initial 0 ∈ Automaton.startLabel g :=
    mem_closure_iff.mpr (.given List.mem_cons_self)
  have hstart : g.start ∈ awaitedSymbols g (Automaton.startLabel g) :=
    mem_awaitedSymbols.mpr ⟨⟨_, hinitial, rfl⟩, g.start_ne_endOfInput⟩
  -- the accepting rule has seen the start symbol in the second state, and no other symbol
  have hsecond := h.goto_startLabel stretches hrows hstart
  have hadvance : (Item.initial 0).advance ∈ goto g (Automaton.startLabel g) g.start :=
    advance_mem_goto hinitial rfl
  rw [Option.some.inj (hsecond.symm.trans (h.goto_startLabel stretches hrows hy))] at hadvance
  exact (Option.some.inj (mem_of_succ_mem_goto hadvance).2).symm

/-- The rule is the accepting one or one of the start symbol. -/
theorem eq_zero_or_mem_rulesOf_start (h : Explored g r rows) (stretches : r.Stretches q j)
    (hrows : 0 < rows.size) : q = 0 ∨ q ∈ g.rulesOf g.start := by
  obtain ⟨label, hlabel, hq⟩ := h.exists_mem_of_stretches stretches (Nat.zero_le j)
  obtain rfl := Option.some.inj (h.start.symm.trans hlabel)
  cases mem_closure_iff.mp hq with
  | given hgiven =>
      left
      exact congrArg Item.rule (List.mem_singleton.mp hgiven)
  | @predict i n _ hi awaits rule =>
      right
      obtain ⟨next, hn⟩ := Item.awaits?_eq_some_iff.mp awaits
      have hawaited : n ∈ awaitedSymbols g (Automaton.startLabel g) :=
        mem_awaitedSymbols.mpr
          ⟨⟨i, mem_closure_iff.mpr hi, next⟩, Grammar.ne_endOfInput_of_isNonterminal hn⟩
      rw [← h.eq_start_of_awaited stretches hrows hawaited]
      exact rule

/-- All rules of the start symbol begin with it, but those that are empty. -/
theorem eq_start_of_body (h : Explored g r rows) (stretches : r.Stretches q j)
    (hrows : 0 < rows.size) {rule : Rule} (hrule : rule ∈ g.rules) (hhead : rule.head = g.start)
    {y : SymbolId} (hy : rule.body[0]? = some y) : y = g.start := by
  obtain ⟨k, hk⟩ := Array.mem_iff_getElem?.mp hrule
  have hq : k + 1 ∈ g.rulesOf g.start := Grammar.mem_rulesOf.mpr ⟨k, rule, rfl, hk, hhead⟩
  have hawaits : (Item.initial 0).awaits? g = some g.start :=
    Item.awaits?_eq_some_iff.mpr ⟨rfl, g.start_nonterminal⟩
  have hmem : Item.initial (k + 1) ∈ Automaton.startLabel g :=
    mem_closure_iff.mpr (.predict (.given List.mem_cons_self) hawaits hq)
  have next : (Item.initial (k + 1)).next? g = some y := by
    have hrule? : g.rule? (Item.initial (k + 1)).rule = some rule := hk
    rw [Item.next?_of_rule? hrule?, Array.getElem?_toList]
    exact hy
  apply h.eq_start_of_awaited stretches hrows
  exact mem_awaitedSymbols.mpr ⟨⟨_, hmem, next⟩,
    Grammar.ne_endOfInput_of_mem_body hrule (Array.mem_of_getElem? hy)⟩

end Explored

/-! ## Breaking off -/

/-- A row is broken off for a cursor where `goto` cannot be made. -/
theorem goto?_eq_none_of_connect {state i : StateId} {label : ItemSet} {r : Registry}
    {row : Row StateId} {xs : List SymbolId} {x : SymbolId}
    (h : connect g state label r row xs = .error (.cursorOverflow i x)) :
    i = state ∧ goto? g label x = none := by
  induction xs generalizing r row with
  | nil => cases h
  | cons y rest ih =>
      rw [connect] at h
      split at h
      · next hgoto =>
        cases h
        exact ⟨rfl, hgoto⟩
      split at h
      · next e hnumber =>
        obtain rfl := Except.error.inj h
        cases (Registry.number_eq_error hnumber).1
      split at h
      · split at h
        · exact ih h
        · cases h
      · exact ih h

namespace Automaton

/-- Where a construction is broken off for a cursor, this cursor is at its last place, in the state with
the last number. -/
theorem exists_stretches_of_build {i : StateId} {x : SymbolId}
    (h : build g = .error (.cursorOverflow i x)) :
    ∃ r rows q, Explored g r rows ∧ rows.size = Item.maxCursor ∧
      r.Stretches q Item.maxCursor ∧ i = Item.maxCursor ∧
      Item.next? g ⟨q, Item.maxCursor⟩ = some x := by
  unfold build at h
  split at h
  · next e hnumber =>
    obtain rfl := Except.error.inj h
    cases (Registry.number_eq_error hnumber).1
  next i₀ r₀ hnumber =>
  have houtcome := explored_of_explore hnumber
  split at h
  · next e hexplore =>
    obtain rfl := Except.error.inj h
    rw [hexplore] at houtcome
    obtain ⟨r, rows, label, hexplored, hlabel, hconnect⟩ := houtcome
    obtain ⟨rfl, hgoto⟩ := goto?_eq_none_of_connect hconnect
    obtain ⟨⟨q, c⟩, hmem, next, hlast⟩ := goto?_eq_none_iff.mp hgoto
    -- the cursor is not ahead of the state, and the state has one of the numbers
    have hle : c ≤ rows.size := hexplored.cursor_le hlabel hmem
    have hlt := (Array.getElem?_eq_some_iff.mp hlabel).1
    have hroom : r.labels.size ≤ Item.maxCursor + 1 := r.size_le
    have hlast : Item.maxCursor ≤ c := hlast
    obtain rfl : c = Item.maxCursor := by omega
    have hsize : rows.size = Item.maxCursor := by omega
    rw [hsize] at hlabel
    exact ⟨r, rows, q, hexplored, hsize, ⟨⟨label, hlabel, hmem⟩, hroom⟩, hsize, next⟩
  · cases h

/-- **What a construction comes to.** It finds the automaton, or there are too many states, or it breaks
off for a cursor. Then it is in the last state for which there is a number, there is a rule of the start
symbol that is longer than a cursor can count, and all rules of this symbol begin with it but those that
are empty. -/
theorem build_outcome (g : Grammar) :
    (∃ a, build g = .ok a) ∨ build g = .error .tooManyStates ∨
      ∃ x, build g = .error (.cursorOverflow Item.maxCursor x) ∧
        (∃ r ∈ g.rules, r.head = g.start ∧ r.body[Item.maxCursor]? = some x) ∧
        ∀ r ∈ g.rules, r.head = g.start → ∀ y, r.body[0]? = some y → y = g.start := by
  cases hbuild : build g with
  | ok a => exact Or.inl ⟨a, rfl⟩
  | error e =>
      right
      cases genuine_of_build hbuild with
      | tooManyStates => exact Or.inl rfl
      | @cursorOverflow i x =>
          right
          obtain ⟨r, rows, q, hexplored, hsize, stretches, rfl, next⟩ :=
            exists_stretches_of_build hbuild
          have hrows : 0 < rows.size := by
            rw [hsize]
            decide
          refine ⟨x, rfl, ?_, ?_⟩
          · rcases hexplored.eq_zero_or_mem_rulesOf_start stretches hrows with rfl | hq
            · -- the body of the accepting rule has two symbols
              cases next
            · obtain ⟨k, rule, rfl, hk, hhead⟩ := Grammar.mem_rulesOf.mp hq
              have hrule? : g.rule? (k + 1) = some rule := hk
              rw [Item.next?_of_rule? (i := ⟨k + 1, Item.maxCursor⟩) hrule?,
                Array.getElem?_toList] at next
              exact ⟨rule, Array.mem_of_getElem? hk, hhead, next⟩
          · intro rule hrule hhead y hy
            exact hexplored.eq_start_of_body stretches hrows hrule hhead hy

/-- `S` and then 65535 times `a` as the body of a rule for `S` is one symbol too long, and there are not
too many states. -/
theorem build_stretched_breaks_off :
    Grammar.ofNamed letters "S" (stretchedRules 65534).toList = .ok (stretched 65534) ∧
    ¬ ((∃ a, build (stretched 65534) = .ok a) ∨
      build (stretched 65534) = .error .tooManyStates) := by
  have hbuild := build_stretched (Nat.le_refl Item.maxCursor : Item.maxCursor ≤ 65534 + 1)
  refine ⟨ofNamed_stretched 65534, ?_⟩
  rw [hbuild]
  rintro (⟨a, ha⟩ | hfull)
  · cases ha
  · cases hfull

end Automaton

end ShiftReduce
