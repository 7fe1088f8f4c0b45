import ShiftReduce.Proofs.Automaton.Canonical
import ShiftReduce.Proofs.Grammar.Definition

/-!
# How a construction fails

A state has one transition on each symbol whatever the grammar, so a construction can fail in two ways
only: no number is left for a label, or a cursor would leave its last place
(`Automaton.genuine_of_build`). The first is reported for what it is, the second breaks the construction
off.

There are as many states as a cursor has places, and this does not keep the second away. The body of a
rule may begin with its own head. Then it is at its second place in a state that the accepting rule needs
as well, and with its cursor at the last place there are no more states than there may be
(`Automaton.build_stretched`). The states of such a grammar are a line (`Line`): each is left on one
symbol, for the next one.
-/

namespace ShiftReduce

variable {g : Grammar}

/-! ## Cursors at their last place -/

theorem mapM_advance?_eq_none_iff {items : List Item} :
    items.mapM Item.advance? = none ↔ ∃ i ∈ items, Item.maxCursor ≤ i.cursor := by
  induction items with
  | nil => simp
  | cons i items ih =>
      by_cases hi : i.cursor < Item.maxCursor
      · have hadvance : i.advance? = some i.advance := if_pos hi
        have hlast : ¬ Item.maxCursor ≤ i.cursor := Nat.not_le.mpr hi
        cases hrest : items.mapM Item.advance? with
        | none => simp [List.mapM_cons, hadvance, hrest, hlast, ← ih]
        | some advanced => simp [List.mapM_cons, hadvance, hrest, hlast, ← ih]
      · have hadvance : i.advance? = none := if_neg hi
        simp [List.mapM_cons, hadvance, Nat.not_lt.mp hi]

/-- A `goto` cannot be made exactly if a cursor would leave its last place. -/
theorem goto?_eq_none_iff {label : ItemSet} {x : SymbolId} :
    goto? g label x = none ↔ ∃ i ∈ label, i.next? g = some x ∧ Item.maxCursor ≤ i.cursor := by
  rw [goto?, Option.map_eq_none_iff, mapM_advance?_eq_none_iff]
  simp only [mem_awaiting, and_assoc]

/-- A cursor at its last place has a longer body before it. -/
theorem Item.exists_overlong {i : Item} {x : SymbolId} (next : i.next? g = some x)
    (last : maxCursor ≤ i.cursor) : ∃ r ∈ g.rules, maxCursor < r.body.size := by
  obtain ⟨r, hr, hx⟩ := Option.bind_eq_some_iff.mp next
  have hcursor : maxCursor < r.body.size :=
    Nat.lt_of_le_of_lt last (Array.getElem?_eq_some_iff.mp hx).1
  rcases hrule : i.rule with _ | k
  · rw [hrule] at hr
    obtain rfl : g.acceptRule = r := Option.some.inj hr
    exact absurd hcursor (by show ¬ 65535 < 2; decide)
  · rw [hrule] at hr
    exact ⟨r, Array.mem_of_getElem? hr, hcursor⟩

/-! ## What is reported -/

/-- The two ways in which a construction can fail. -/
inductive AutomatonError.Genuine (g : Grammar) : AutomatonError → Prop
  | tooManyStates : Genuine g .tooManyStates
  | cursorOverflow {i x r} (rule : r ∈ g.rules) (overlong : Item.maxCursor < r.body.size) :
      Genuine g (.cursorOverflow i x)

/-- In a row that leads where `goto` does, nothing is entered twice. -/
theorem genuine_of_connect {state : StateId} {label : ItemSet} {r : Registry} {row : Row StateId}
    {xs : List SymbolId} {e : AutomatonError} (leads : r.Leads g label row)
    (h : connect g state label r row xs = .error e) : e.Genuine g := by
  induction xs generalizing r row with
  | nil => cases h
  | cons x rest ih =>
      rw [connect] at h
      split at h
      · next hgoto =>
        obtain rfl := Except.error.inj h
        obtain ⟨i, -, next, last⟩ := goto?_eq_none_iff.mp hgoto
        obtain ⟨rule, hrule, overlong⟩ := Item.exists_overlong next last
        exact .cursorOverflow hrule overlong
      next target hgoto =>
      obtain rfl := eq_goto_of_goto? hgoto
      split at h
      · next e' hnumber =>
        obtain rfl := Except.error.inj h
        rw [(Registry.number_eq_error hnumber).1]
        exact .tooManyStates
      next next r₁ hnumber =>
      obtain ⟨hextend, hnext, -⟩ := Registry.number_spec hnumber
      have hleads := leads.extend hextend
      split at h
      · next old henter =>
        have hold := hleads x old (Row.find?_of_enter_eq_error henter)
        rw [if_pos (r₁.number_unique hold hnext)] at h
        exact ih hleads h
      · next row₁ henter => exact ih (hleads.enter hnext henter) h

/-- **A construction fails in two ways only**, and for a cursor only where a body is too long. -/
theorem Automaton.genuine_of_build {e : AutomatonError} (h : build g = .error e) :
    e.Genuine g := by
  unfold build at h
  split at h
  · next e' hnumber =>
    obtain rfl := Except.error.inj h
    rw [(Registry.number_eq_error hnumber).1]
    exact .tooManyStates
  next i₀ r₀ hnumber =>
  have houtcome := @explore_induction g (fun _ _ => True) (fun _ _ _ _ _ _ _ _ => trivial) r₀ #[]
    trivial
  split at h
  · next e' hexplore =>
    obtain rfl := Except.error.inj h
    rw [hexplore] at houtcome
    obtain ⟨r, rows, label, -, -, herror⟩ := houtcome
    exact genuine_of_connect (Registry.leads_empty g r label) herror
  · cases h

/-- Where no cursor comes to stand before a nonterminal, `goto` adds no rules. -/
theorem mem_goto_iff_of_idle {label : ItemSet} {x : SymbolId}
    (idle : ∀ i ∈ label, i.next? g = some x → i.advance.awaits? g = none) {j : Item} :
    j ∈ goto g label x ↔ ∃ i ∈ label, i.next? g = some x ∧ i.advance = j := by
  rw [goto, mem_closure_iff]
  constructor
  · intro h
    induction h with
    | given h =>
        obtain ⟨i, hi, rfl⟩ := List.mem_map.mp h
        obtain ⟨hi, next⟩ := mem_awaiting.mp hi
        exact ⟨i, hi, next, rfl⟩
    | predict h awaits rule ih =>
        obtain ⟨i, hi, next, rfl⟩ := ih
        rw [idle i hi next] at awaits
        cases awaits
  · rintro ⟨i, hi, next, rfl⟩
    exact .given (List.mem_map_of_mem (mem_awaiting.mpr ⟨hi, next⟩))

/-! ## States in a line -/

/-- Each label up to a last one is new, and awaits one symbol, behind which the next one comes. The
last one cannot be left. -/
structure Line (g : Grammar) (L : Nat → ItemSet) (x : Nat → SymbolId) (m : Nat) : Prop where
  start : L 0 = Automaton.startLabel g
  new : ∀ i j, i ≤ m → j ≤ m → L i = L j → i = j
  awaits : ∀ k ≤ m, (awaitedSymbols g (L k)).toList = [x k]
  goes : ∀ k < m, goto? g (L k) (x k) = some (L (k + 1))
  stuck : goto? g (L m) (x m) = none

namespace Registry

variable {r : Registry} {L : Nat → ItemSet} {k : Nat}

theorem number_of_fresh {l : ItemSet} (fresh : ∀ i : Nat, r.labels[i]? ≠ some l)
    (room : r.labels.size < maxStates) :
    ∃ r', r.number l = .ok (r.labels.size, r') ∧ r'.labels = r.labels.push l := by
  unfold number
  split
  · next i hi => exact absurd ((r.numbers_iff l i).mp hi) (fresh i)
  · next hfresh =>
    dsimp only
    rw [dif_pos room]
    exact ⟨_, rfl, rfl⟩

/-- The labels of a line up to a place are registered, in their order. -/
structure Holds (L : Nat → ItemSet) (k : Nat) (r : Registry) : Prop where
  size : r.labels.size = k + 1
  label : ∀ i ≤ k, r.labels[i]? = some (L i)

theorem Holds.push {r' : Registry} (h : r.Holds L k)
    (labels : r'.labels = r.labels.push (L (k + 1))) : r'.Holds L (k + 1) where
  size := by rw [labels, Array.size_push, h.size]
  label i hi := by
    rw [labels, Array.getElem?_push, h.size]
    split
    · next heq => rw [heq]
    · next hne => exact h.label i (by omega)

end Registry

namespace Line

variable {L : Nat → ItemSet} {x : Nat → SymbolId} {m k : Nat} {r : Registry}

/-- Before the last label, a row has one transition, to the next label. -/
theorem connect_eq_ok (line : Line g L x m) (room : m < maxStates) (holds : r.Holds L k)
    (hk : k < m) : ∃ r' row, r'.Holds L (k + 1) ∧
      connect g k (L k) r {} (awaitedSymbols g (L k)).toList = .ok (r', row) := by
  have hfresh : ∀ i : Nat, r.labels[i]? ≠ some (L (k + 1)) := by
    intro i hi
    have hle : i ≤ k := by
      have := (Array.getElem?_eq_some_iff.mp hi).1
      have := holds.size
      omega
    have heq := Option.some.inj ((holds.label i hle).symm.trans hi)
    have := line.new i (k + 1) (by omega) (by omega) heq
    omega
  have hroom : r.labels.size < maxStates := by
    rw [holds.size]
    omega
  obtain ⟨r', hnumber, hlabels⟩ := Registry.number_of_fresh hfresh hroom
  refine ⟨r', ⟨#[(x k, r.labels.size)]⟩, holds.push hlabels, ?_⟩
  rw [line.awaits k (Nat.le_of_lt hk), connect, line.goes k hk]
  simp only [hnumber]
  rfl

/-- At the last label the row is given up. -/
theorem connect_eq_error (line : Line g L x m) :
    connect g m (L m) r {} (awaitedSymbols g (L m)).toList = .error (.cursorOverflow m (x m)) := by
  rw [line.awaits m (Nat.le_refl m), connect, line.stuck]

/-- Either row, where it is the turn of the label that was found last. -/
theorem connect_cases (line : Line g L x m) (room : m < maxStates) (holds : r.Holds L k)
    (hk : k ≤ m) {label : ItemSet} (hlabel : r.labels[k]? = some label) :
    (∃ r' row, k < m ∧ r'.Holds L (k + 1) ∧
      connect g k label r {} (awaitedSymbols g label).toList = .ok (r', row)) ∨
    connect g k label r {} (awaitedSymbols g label).toList = .error (.cursorOverflow m (x m)) := by
  obtain rfl := Option.some.inj ((holds.label k (Nat.le_refl k)).symm.trans hlabel)
  rcases Nat.lt_or_eq_of_le hk with hlt | rfl
  · obtain ⟨r', row, hnext, hok⟩ := line.connect_eq_ok room holds hlt
    exact Or.inl ⟨r', row, hlt, hnext, hok⟩
  · exact Or.inr line.connect_eq_error

/-- A construction along a line comes to its last label, and breaks off there. -/
theorem build_eq_error (line : Line g L x m) (room : m < maxStates) :
    Automaton.build g = .error (.cursorOverflow m (x m)) := by
  have hfresh : ∀ i : Nat, ({} : Registry).labels[i]? ≠ some (L 0) := by
    intro i hi
    simp at hi
  obtain ⟨r₀, hnumber, hlabels⟩ := Registry.number_of_fresh hfresh (by show 0 < 65536; decide)
  have hholds : r₀.Holds L 0 := by
    refine ⟨by rw [hlabels]; rfl, fun i hi => ?_⟩
    obtain rfl := Nat.le_zero.mp hi
    rw [hlabels]
    rfl
  -- behind each finished row the next label of the line is registered
  have houtcome := explore_induction (g := g)
    (motive := fun r rows => rows.size ≤ m ∧ r.Holds L rows.size)
    (by
      rintro r rows label r₁ row ⟨hle, hr⟩ hlabel hconnect
      rcases line.connect_cases room hr hle hlabel with ⟨r₂, row₂, hlt, hnext, hok⟩ | herror
      · obtain ⟨rfl, rfl⟩ := Prod.mk.inj (Except.ok.inj (hok.symm.trans hconnect))
        rw [Array.size_push]
        exact ⟨hlt, hnext⟩
      · cases herror.symm.trans hconnect)
    (⟨Nat.zero_le m, hholds⟩ : (#[] : Array (Row StateId)).size ≤ m ∧ r₀.Holds L _)
  unfold Automaton.build
  rw [← line.start, hnumber]
  dsimp only
  cases hexplore : explore g r₀ #[] with
  | ok answer =>
      -- there is always a label without a row
      rw [hexplore] at houtcome
      obtain ⟨⟨-, hr⟩, hfinished⟩ := houtcome
      have := hr.size
      omega
  | error e =>
      rw [hexplore] at houtcome
      obtain ⟨r, rows, label, ⟨hle, hr⟩, hlabel, hconnect⟩ := houtcome
      rcases line.connect_cases room hr hle hlabel with ⟨r₂, row₂, -, -, hok⟩ | herror
      · cases hok.symm.trans hconnect
      · rw [Except.error.inj (hconnect.symm.trans herror)]

end Line

/-! ## A body that is too long -/

theorem isOk_letters : (Vocabulary.ofSymbols [⟨.terminal, "a"⟩, ⟨.endOfInput, "end"⟩,
    ⟨.nonterminal, "S"⟩]).isOk = true := by
  decide +kernel

/-- The symbols `a`, `end` and `S`, in this order. -/
def letters : Vocabulary := valueOf _ isOk_letters

theorem symbols_letters :
    letters.symbols = #[⟨.terminal, "a"⟩, ⟨.endOfInput, "end"⟩, ⟨.nonterminal, "S"⟩] := by
  decide +kernel

/-- The rules of `S`: itself and more than `n` times `a`, itself, and nothing. -/
def stretchedRules (n : Nat) : Array Rule :=
  #[⟨"LONG", 2, (2 :: List.replicate (n + 1) 0).toArray⟩, ⟨"AGAIN", 2, #[2]⟩, ⟨"NONE", 2, #[]⟩]

theorem wellFormed_stretchedRules (n : Nat) :
    WellFormedRules letters.symbols (stretchedRules n) where
  head := by simp [stretchedRules, symbols_letters]
  body := by simp [stretchedRules, symbols_letters]
  names := by simp [stretchedRules]
  productions := by simp [stretchedRules, Rule.production, List.replicate_succ]
  size_le := by show 3 ≤ 65535; decide

/-- A grammar of one long rule; that `S` is `S` makes it ambiguous. -/
def stretched (n : Nat) : Grammar where
  vocabulary := letters
  start := 2
  rules := stretchedRules n
  start_nonterminal := by decide +kernel
  rules_wellFormed := wellFormed_stretchedRules n

/-- No check speaks against the grammar. -/
theorem ofNamed_stretched (n : Nat) :
    Grammar.ofNamed letters "S" (stretchedRules n).toList = .ok (stretched n) := by
  have hstart : letters.lookup? "S" = some 2 := by decide +kernel
  rw [Grammar.ofNamed, hstart]
  exact Grammar.assemble_of_wellFormed _ _

section

variable {n : Nat}

theorem isNonterminal_stretched {x : SymbolId} : (stretched n).isNonterminal x = true ↔ x = 2 := by
  rw [Grammar.isNonterminal, Vocabulary.isNonterminal_iff, Vocabulary.symbol?]
  show (letters.symbols[x]?.map Symbol.kind = _) ↔ _
  rw [symbols_letters]
  rcases x with _ | _ | _ | x <;> simp

/-- The rules of the items of a state. The number of the state is the cursor of them all. -/
def stretchedRuleIds : Nat → List RuleId
  | 0 => [0, 1, 2, 3]
  | 1 => [0, 1, 2]
  | _ + 2 => [1]

/-- The labels, in the order in which they are found. -/
def stretchedLabel (k : Nat) : ItemSet :=
  OrderedSet.ofList ((stretchedRuleIds k).map fun r => ⟨r, k⟩)

/-- The symbols on which the states are left. -/
def stretchedSymbol : Nat → SymbolId
  | 0 => 2
  | _ + 1 => 0

theorem mem_stretchedLabel {k : Nat} {i : Item} :
    i ∈ stretchedLabel k ↔ i.rule ∈ stretchedRuleIds k ∧ i.cursor = k := by
  rw [stretchedLabel, OrderedSet.mem_ofList, List.mem_map]
  constructor
  · rintro ⟨r, hr, rfl⟩
    exact ⟨hr, rfl⟩
  · rintro ⟨hr, rfl⟩
    exact ⟨i.rule, hr, rfl⟩

theorem one_mem_stretchedRuleIds (k : Nat) : 1 ∈ stretchedRuleIds k := by
  rcases k with _ | _ | k <;> simp [stretchedRuleIds]

/-- Behind `S` the long rule awaits `a`. -/
theorem next?_stretched_long (k : Nat) :
    Item.next? (stretched n) ⟨1, k + 1⟩ = if k < n + 1 then some 0 else none := by
  rw [Item.next?_of_rule? rfl]
  show (2 :: List.replicate (n + 1) 0 : List SymbolId)[k + 1]? = _
  rw [List.getElem?_cons_succ, List.getElem?_replicate]

/-- What the items of a state await: its symbol, by the rules of the next state, or else the end or
nothing. -/
theorem next?_stretched {k : Nat} (hk : k < n + 2) {r : RuleId} (hr : r ∈ stretchedRuleIds k) :
    r ∈ stretchedRuleIds (k + 1) ∧ Item.next? (stretched n) ⟨r, k⟩ = some (stretchedSymbol k) ∨
      r ∉ stretchedRuleIds (k + 1) ∧
        ∀ x, Item.next? (stretched n) ⟨r, k⟩ = some x → x = (stretched n).endOfInput := by
  rcases k with _ | _ | k
  · simp only [stretchedRuleIds, List.mem_cons, List.not_mem_nil, or_false] at hr
    rcases hr with rfl | rfl | rfl | rfl
    · exact Or.inl ⟨by decide, rfl⟩
    · exact Or.inl ⟨by decide, rfl⟩
    · exact Or.inl ⟨by decide, rfl⟩
    · exact Or.inr ⟨by decide, nofun⟩
  · simp only [stretchedRuleIds, List.mem_cons, List.not_mem_nil, or_false] at hr
    rcases hr with rfl | rfl | rfl
    · refine Or.inr ⟨by decide, fun x hx => ?_⟩
      obtain rfl := Option.some.inj hx
      rfl
    · exact Or.inl ⟨by decide, rfl⟩
    · exact Or.inr ⟨by decide, nofun⟩
  · obtain rfl := List.mem_singleton.mp hr
    refine Or.inl ⟨List.mem_cons_self, ?_⟩
    rw [next?_stretched_long, if_pos (by omega)]
    rfl

theorem stretchedSymbol_ne_endOfInput (k : Nat) :
    stretchedSymbol k ≠ (stretched n).endOfInput := by
  rcases k with _ | k
  · show 2 ≠ letters.endOfInput
    decide +kernel
  · show 0 ≠ letters.endOfInput
    decide +kernel

/-- The rules of the next state are those of the items that await the symbol. -/
theorem mem_stretchedRuleIds_succ {k : Nat} (hk : k < n + 2) {r : RuleId} :
    r ∈ stretchedRuleIds (k + 1) ↔
      r ∈ stretchedRuleIds k ∧ Item.next? (stretched n) ⟨r, k⟩ = some (stretchedSymbol k) := by
  constructor
  · intro hr
    have hmem : r ∈ stretchedRuleIds k := by
      rcases k with _ | _ | k
      · exact List.mem_of_mem_dropLast hr
      · obtain rfl := List.mem_singleton.mp hr
        exact one_mem_stretchedRuleIds 1
      · exact hr
    rcases next?_stretched hk hmem with ⟨-, next⟩ | ⟨hlast, -⟩
    · exact ⟨hmem, next⟩
    · exact absurd hr hlast
  · rintro ⟨hr, next⟩
    rcases next?_stretched hk hr with ⟨hr, -⟩ | ⟨-, hend⟩
    · exact hr
    · exact absurd (hend _ next) (stretchedSymbol_ne_endOfInput k)

theorem startLabel_stretched : stretchedLabel 0 = Automaton.startLabel (stretched n) := by
  have hstart : (stretched n).Closes [.initial 0] (.initial 0) := .given List.mem_cons_self
  have hawaits : (Item.initial 0).awaits? (stretched n) = some 2 :=
    Item.awaits?_eq_some_iff.mpr ⟨rfl, isNonterminal_stretched.mpr rfl⟩
  have hrules : ∀ {i : Nat}, i + 1 ∈ (stretched n).rulesOf 2 ↔ i + 1 ∈ stretchedRuleIds 0 := by
    intro i
    rw [Grammar.mem_rulesOf]
    constructor
    · rintro ⟨j, r, hi, hr, -⟩
      have hj : j < 3 := (Array.getElem?_eq_some_iff.mp hr).1
      rcases j with _ | _ | _ | j
      · simp [hi, stretchedRuleIds]
      · simp [hi, stretchedRuleIds]
      · simp [hi, stretchedRuleIds]
      · exact absurd hj (Nat.not_lt.mpr (Nat.le_add_left 3 j))
    · intro hi
      simp [stretchedRuleIds] at hi
      rcases hi with rfl | rfl | rfl
      · exact ⟨0, _, rfl, rfl, rfl⟩
      · exact ⟨1, _, rfl, rfl, rfl⟩
      · exact ⟨2, _, rfl, rfl, rfl⟩
  apply OrderedSet.ext
  intro i
  rw [Automaton.startLabel, mem_closure_iff, mem_stretchedLabel]
  constructor
  · rintro ⟨hr, hcursor⟩
    obtain ⟨_ | r, _⟩ := i
    · obtain rfl := hcursor
      exact hstart
    · obtain rfl := hcursor
      exact .predict hstart hawaits (hrules.mpr hr)
  · intro h
    cases h with
    | given h =>
        obtain rfl := List.mem_singleton.mp h
        exact ⟨List.mem_cons_self, rfl⟩
    | @predict i x q h awaits rule =>
        obtain rfl := isNonterminal_stretched.mp (Item.awaits?_eq_some_iff.mp awaits).2
        obtain ⟨r, -, rfl, -⟩ := Grammar.mem_rulesOf.mp rule
        exact ⟨hrules.mp rule, rfl⟩

theorem goto_stretched {k : Nat} (hk : k < n + 1) :
    goto (stretched n) (stretchedLabel k) (stretchedSymbol k) = stretchedLabel (k + 1) := by
  have hsucc := @mem_stretchedRuleIds_succ n k (by omega)
  apply OrderedSet.ext
  intro j
  rw [mem_goto_iff_of_idle, mem_stretchedLabel, hsucc]
  · constructor
    · rintro ⟨⟨r, c⟩, hi, next, rfl⟩
      obtain ⟨hr, rfl⟩ := mem_stretchedLabel.mp hi
      exact ⟨⟨hr, next⟩, rfl⟩
    · obtain ⟨r, c⟩ := j
      rintro ⟨⟨hr, next⟩, rfl⟩
      exact ⟨⟨r, k⟩, mem_stretchedLabel.mpr ⟨hr, rfl⟩, next, rfl⟩
  · rintro ⟨r, c⟩ hi next
    obtain ⟨hr, rfl⟩ := mem_stretchedLabel.mp hi
    cases hawaits : (Item.advance ⟨r, c⟩).awaits? (stretched n) with
    | none => rfl
    | some y =>
        obtain ⟨next', hy⟩ := Item.awaits?_eq_some_iff.mp hawaits
        rcases next?_stretched (Nat.succ_lt_succ hk) (hsucc.mpr ⟨hr, next⟩) with ⟨-, ha⟩ | ⟨-, hend⟩
        · obtain rfl : y = 0 := Option.some.inj (next'.symm.trans ha)
          exact absurd (isNonterminal_stretched.mp hy) (by decide)
        · exact absurd (hend y next') (Grammar.ne_endOfInput_of_isNonterminal hy)

theorem awaitedSymbols_stretched {k : Nat} (hk : k < n + 2) :
    awaitedSymbols (stretched n) (stretchedLabel k) = OrderedSet.singleton (stretchedSymbol k) := by
  apply OrderedSet.ext
  intro x
  rw [mem_awaitedSymbols, OrderedSet.mem_singleton]
  constructor
  · rintro ⟨⟨⟨r, c⟩, hi, next⟩, inner⟩
    obtain ⟨hr, rfl⟩ := mem_stretchedLabel.mp hi
    rcases next?_stretched hk hr with ⟨-, next'⟩ | ⟨-, hend⟩
    · exact Option.some.inj (next.symm.trans next')
    · exact absurd (hend x next) inner
  · rintro rfl
    have hone := mem_stretchedRuleIds_succ hk |>.mp (one_mem_stretchedRuleIds (k + 1))
    exact ⟨⟨⟨1, k⟩, mem_stretchedLabel.mpr ⟨hone.1, rfl⟩, hone.2⟩, stretchedSymbol_ne_endOfInput k⟩

/-- The states of the grammar come in a line up to the one where the cursor is at its last place. -/
theorem line_stretched (long : Item.maxCursor ≤ n + 1) :
    Line (stretched n) stretchedLabel stretchedSymbol Item.maxCursor where
  start := startLabel_stretched
  new i j _ _ heq := by
    have hi := mem_stretchedLabel.mpr ⟨one_mem_stretchedRuleIds i, (rfl : (⟨1, i⟩ : Item).cursor = i)⟩
    rw [heq] at hi
    exact (mem_stretchedLabel.mp hi).2
  awaits k hk := by
    rw [awaitedSymbols_stretched (by omega)]
    rfl
  goes k hk := by
    rw [goto?_eq_some, goto_stretched (by omega)]
    intro i hi
    rw [(mem_stretchedLabel.mp (mem_awaiting.mp hi).1).2]
    exact hk
  stuck := by
    obtain ⟨hmem, next⟩ := (mem_stretchedRuleIds_succ (n := n) (by omega)).mp
      (one_mem_stretchedRuleIds (Item.maxCursor + 1))
    exact goto?_eq_none_iff.mpr ⟨_, mem_stretchedLabel.mpr ⟨hmem, rfl⟩, next, Nat.le_refl _⟩

/-- **A cursor can run over.** A body that is too long is not always found out for want of states. -/
theorem Automaton.build_stretched (long : Item.maxCursor ≤ n + 1) :
    build (stretched n) = .error (.cursorOverflow Item.maxCursor 0) :=
  (line_stretched long).build_eq_error (by show 65535 < 65536; decide)

end

end ShiftReduce
