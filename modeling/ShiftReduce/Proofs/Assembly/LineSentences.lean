import ShiftReduce.Assembly.Line
import ShiftReduce.Proofs.Automaton.Path
import ShiftReduce.Proofs.SlrTable.CorrectPrefix

/-!
# The sentences of a line

The grammar of a line has one sentence for each form of an instruction, and each has one tree, of two
rules. So the beginnings of sentences are those of the forms (`isViable_iff`).

The parser of a line has a fixed allowance of moves beyond one for each token. That it is enough for every
line, also for one with errors, is a matter of what can be on the stack: nonterminals stand only at its
bottom, since no rule has one behind something else (`eq_reverse_seen`). So the number of moves is
known from the stack (`stackMoves_le`), and `exists_outcome` says that a parse has one of the outcomes.
-/

namespace ShiftReduce.Assembly

/-! ## Rules and symbols -/

theorem compile_lineGrammar : SlrTable.compile lineGrammar = .ok lineTable := by
  unfold lineTable
  split
  · assumption
  · next h => exact absurd isOk_compile_lineGrammar (by simp [h, Except.isOk, Except.toBool])

/-- The symbols of a form. -/
def Form.symbols (f : Form) : List SymbolId := f.terminals.map Terminal.symbol

theorem start_lineGrammar : lineGrammar.start = 5 := by decide +kernel

theorem endOfInput_lineGrammar : lineGrammar.endOfInput = 7 := by decide +kernel

/-- The rule of a line comes first, then those of the forms. -/
theorem rules_lineGrammar : lineGrammar.rules.toList.map (fun r => (r.head, r.body.toList)) =
    (5, [6]) :: Form.all.map fun f => (6, f.symbols) := by
  decide +kernel

theorem given?_lineGrammar {r : RuleId} {x : SymbolId} {body : List SymbolId} :
    lineGrammar.given? r = some (x, body) ↔ r = 1 ∧ x = 5 ∧ body = [6] ∨
      ∃ k f, r = k + 2 ∧ Form.all[k]? = some f ∧ x = 6 ∧ body = f.symbols := by
  have hrules : ∀ i : Nat, (lineGrammar.rules[i]?).map (fun r => (r.head, r.body.toList)) =
      ((5, [6]) :: Form.all.map fun f => (6, f.symbols))[i]? := by
    intro i
    rw [← rules_lineGrammar, List.getElem?_map, Array.getElem?_toList]
  rw [Grammar.given?_eq_some_iff]
  constructor
  · rintro ⟨i, rule, rfl, hrule, rfl, rfl⟩
    have hi := hrules i
    rw [hrule, Option.map_some] at hi
    rcases i with _ | k
    · obtain ⟨hhead, hbody⟩ := Prod.mk.inj (Option.some.inj hi)
      exact Or.inl ⟨rfl, hhead, hbody⟩
    · rw [List.getElem?_cons_succ, List.getElem?_map] at hi
      obtain ⟨f, hf, heq⟩ := Option.map_eq_some_iff.mp hi.symm
      obtain ⟨hhead, hbody⟩ := Prod.mk.inj heq
      exact Or.inr ⟨k, f, rfl, hf, hhead.symm, hbody.symm⟩
  · rintro (⟨rfl, rfl, rfl⟩ | ⟨k, f, rfl, hf, rfl, rfl⟩)
    · obtain ⟨rule, hrule, heq⟩ := Option.map_eq_some_iff.mp (hrules 0)
      obtain ⟨hhead, hbody⟩ := Prod.mk.inj heq
      exact ⟨0, rule, rfl, hrule, hhead, hbody⟩
    · have hk := hrules (k + 1)
      rw [List.getElem?_cons_succ, List.getElem?_map, hf, Option.map_some] at hk
      obtain ⟨rule, hrule, heq⟩ := Option.map_eq_some_iff.mp hk
      obtain ⟨hhead, hbody⟩ := Prod.mk.inj heq
      exact ⟨k + 1, rule, rfl, hrule, hhead, hbody⟩

theorem isTerminal_symbol (t : Terminal) : lineGrammar.IsTerminal t.symbol := by
  cases t <;> decide +kernel

theorem Form.isTerminal_of_mem_symbols {f : Form} : ∀ x ∈ f.symbols, lineGrammar.IsTerminal x := by
  intro x hx
  obtain ⟨t, -, rfl⟩ := List.mem_map.mp hx
  exact isTerminal_symbol t

theorem Terminal.symbol_injective : Function.Injective Terminal.symbol := by
  intro t u h
  cases t <;> cases u <;> first | rfl | cases h

/-! ## Trees -/

/-- The tree of an instruction in the form at place `k`. -/
def instructionTree (k : Nat) (tokens : List (Token SymbolId)) : Tree SymbolId RuleId :=
  .node 6 (k + 2) (tokens.map .leaf)

/-- The tree of a line with such an instruction. -/
def lineTree (k : Nat) (tokens : List (Token SymbolId)) : Tree SymbolId RuleId :=
  .node 5 1 [instructionTree k tokens]

theorem leaves_instructionTree (k : Nat) (tokens : List (Token SymbolId)) :
    (instructionTree k tokens).leaves = tokens :=
  Tree.leavesAll_map_leaf tokens

theorem leaves_lineTree (k : Nat) (tokens : List (Token SymbolId)) :
    (lineTree k tokens).leaves = tokens := by
  rw [lineTree, Tree.leaves, Tree.leavesAll, Tree.leavesAll, List.append_nil, leaves_instructionTree]

/-- The tokens are those of the form at place `k`. -/
structure Spells (k : Nat) (f : Form) (tokens : List (Token SymbolId)) : Prop where
  form : Form.all[k]? = some f
  symbols : tokens.map Token.symbol = f.symbols

theorem Spells.grows {k : Nat} {f : Form} {tokens : List (Token SymbolId)}
    (h : Spells k f tokens) : (instructionTree k tokens).Grows lineGrammar := by
  have hroots : (tokens.map (Tree.leaf (R := RuleId))).map Tree.symbol = f.symbols := by
    rw [List.map_map, ← h.symbols]
    rfl
  apply Tree.grows_node
  · exact given?_lineGrammar.mpr (Or.inr ⟨k, f, rfl, h.form, rfl, hroots⟩)
  · intro t ht
    obtain ⟨l, hl, rfl⟩ := List.mem_map.mp ht
    exact Tree.grows_leaf (Form.isTerminal_of_mem_symbols _
      (h.symbols ▸ List.mem_map_of_mem hl))

theorem isNonterminal_instruction : lineGrammar.isNonterminal 6 = true := by decide +kernel

/-- The trees with the symbol of an instruction at their roots. -/
theorem exists_instructionTree {t : Tree SymbolId RuleId} (h : t.Grows lineGrammar)
    (root : t.symbol = 6) : ∃ k f tokens, Spells k f tokens ∧ t = instructionTree k tokens := by
  obtain ⟨r, us, rfl, rule, children⟩ := h.exists_node root isNonterminal_instruction
  rcases given?_lineGrammar.mp rule with ⟨-, hx, -⟩ | ⟨k, f, rfl, hf, -, hus⟩
  · cases hx
  · obtain ⟨tokens, rfl, hsymbols⟩ := Tree.exists_map_leaf children
      (hus ▸ Form.isTerminal_of_mem_symbols)
    exact ⟨k, f, tokens, ⟨hf, hsymbols.trans hus⟩, rfl⟩

/-- **Derivation trees of a line** are those of an instruction in some form. -/
theorem isDerivationTree_iff {t : Tree SymbolId RuleId} : lineGrammar.IsDerivationTree t ↔
    ∃ k f tokens, Spells k f tokens ∧ t = lineTree k tokens := by
  constructor
  · rintro ⟨root, grows⟩
    obtain ⟨r, us, rfl, rule, children⟩ := grows.exists_node root lineGrammar.start_nonterminal
    rw [start_lineGrammar] at rule ⊢
    rcases given?_lineGrammar.mp rule with ⟨rfl, -, hus⟩ | ⟨k, f, -, -, hx, -⟩
    · obtain ⟨u, us, rfl, hu, hus⟩ := List.map_eq_cons_iff.mp hus
      obtain rfl : us = [] := List.map_eq_nil_iff.mp hus
      obtain ⟨k, f, tokens, hspells, rfl⟩ :=
        exists_instructionTree (children u List.mem_cons_self) hu
      exact ⟨k, f, tokens, hspells, rfl⟩
    · cases hx
  · rintro ⟨k, f, tokens, hspells, rfl⟩
    refine ⟨start_lineGrammar.symm, Tree.grows_node ?_ ?_⟩
    · exact given?_lineGrammar.mpr (Or.inl ⟨rfl, rfl, rfl⟩)
    · intro u hu
      obtain rfl := List.mem_singleton.mp hu
      exact hspells.grows

/-! ## Sentences -/

/-- **The sentences of a line** are the forms. -/
theorem isSentence_iff {w : List SymbolId} :
    lineGrammar.IsSentence w ↔ ∃ f ∈ Form.all, w = f.symbols := by
  constructor
  · intro h
    obtain ⟨tokens, t, hw, hderivation, hleaves⟩ :=
      Grammar.exists_tree_of_isSentence (u := []) h
    obtain ⟨k, f, tokens', hspells, rfl⟩ := isDerivationTree_iff.mp hderivation
    rw [leaves_lineTree, List.nil_append] at hleaves
    subst hleaves
    exact ⟨f, List.mem_of_getElem? hspells.form, hw.symm.trans hspells.symbols⟩
  · rintro ⟨f, hf, rfl⟩
    obtain ⟨k, hk⟩ := List.getElem?_of_mem hf
    let tokens : List (Token SymbolId) := f.symbols.map fun x => ⟨x, ""⟩
    have htokens : tokens.map Token.symbol = f.symbols := by
      rw [List.map_map]
      exact List.map_id _
    rw [← htokens, Grammar.isSentence_iff_exists_tree]
    exact ⟨lineTree k tokens, isDerivationTree_iff.mpr ⟨k, f, tokens, ⟨hk, htokens⟩, rfl⟩,
      leaves_lineTree k tokens⟩

/-- **What begins a sentence** begins a form. -/
theorem isViable_iff {w : List SymbolId} :
    lineGrammar.IsViable w ↔ ∃ f ∈ Form.all, w <+: f.symbols := by
  constructor
  · rintro ⟨v, hsentence⟩
    obtain ⟨f, hf, heq⟩ := isSentence_iff.mp hsentence
    exact ⟨f, hf, v, heq⟩
  · rintro ⟨f, hf, v, heq⟩
    exact ⟨v, isSentence_iff.mpr ⟨f, hf, heq⟩⟩

theorem productive_lineGrammar {x : SymbolId} (hx : lineGrammar.isNonterminal x = true) :
    lineGrammar.Productive x := by
  have hspells : Spells 0 ⟨"NO_OPERANDS", .bare, [.operation]⟩ [⟨0, ""⟩] := ⟨rfl, rfl⟩
  have hline := (isDerivationTree_iff.mpr ⟨_, _, _, hspells, rfl⟩).grows
  have hcases : ∀ x < lineGrammar.vocabulary.size, lineGrammar.isNonterminal x = true →
      x = 5 ∨ x = 6 := by decide +kernel
  rcases hcases x (Grammar.lt_size_of_kind (Grammar.isNonterminal_iff_kind.mp hx)) hx with
    rfl | rfl
  · exact hline.productive
  · exact hspells.grows.productive

/-! ## What can be on the stack -/

/-- The rules of a line, the accepting rule included. -/
theorem rule_cases {q : RuleId} {r : Rule} (hr : lineGrammar.rule? q = some r) :
    q = 0 ∧ r = lineGrammar.acceptRule ∨ q = 1 ∧ r.head = 5 ∧ r.body.toList = [6] ∨
      ∃ k f, q = k + 2 ∧ Form.all[k]? = some f ∧ r.head = 6 ∧ r.body.toList = f.symbols := by
  rcases q with _ | i
  · exact Or.inl ⟨rfl, (Option.some.inj hr).symm⟩
  · have hgiven : lineGrammar.given? (i + 1) = some (r.head, r.body.toList) :=
      Grammar.given?_eq_some_iff.mpr ⟨i, r, rfl, hr, rfl, rfl⟩
    exact Or.inr (given?_lineGrammar.mp hgiven)

/-- The bodies of these rules. -/
theorem body_lineGrammar {q : RuleId} {r : Rule} (hr : lineGrammar.rule? q = some r) :
    q = 0 ∧ r.body.toList = [5, lineGrammar.endOfInput] ∨ q = 1 ∧ r.body.toList = [6] ∨
      ∀ x ∈ r.body.toList, lineGrammar.IsTerminal x := by
  rcases rule_cases hr with ⟨rfl, rfl⟩ | ⟨rfl, -, hbody⟩ | ⟨k, f, -, -, -, hbody⟩
  · exact Or.inl ⟨rfl, congrArg ([·, lineGrammar.endOfInput]) start_lineGrammar⟩
  · exact Or.inr (Or.inl ⟨rfl, hbody⟩)
  · exact Or.inr (Or.inr (hbody ▸ Form.isTerminal_of_mem_symbols))

/-- In the rules of a line a nonterminal stands only at the beginning of a body. -/
theorem cursor_eq_zero_of_awaits {i : Item} {n : SymbolId}
    (h : i.awaits? lineGrammar = some n) : i.cursor = 0 := by
  obtain ⟨next, hnon⟩ := Item.awaits?_eq_some_iff.mp h
  obtain ⟨r, hr, -⟩ := Option.bind_eq_some_iff.mp next
  rw [Item.next?_of_rule? hr] at next
  rcases body_lineGrammar hr with ⟨-, hbody⟩ | ⟨-, hbody⟩ | hterminals
  · rw [hbody] at next
    rcases hcursor : i.cursor with _ | _ | c
    · rfl
    · rw [hcursor] at next
      exact absurd (Option.some.inj next).symm (Grammar.ne_endOfInput_of_isNonterminal hnon)
    · rw [hcursor] at next
      cases next
  · rw [hbody] at next
    rcases hcursor : i.cursor with _ | c
    · rfl
    · rw [hcursor] at next
      cases next
  · exact absurd hnon (hterminals n (List.mem_of_getElem? next)).not_isNonterminal

/-- So what stands on the stack is what the item has seen. -/
theorem eq_reverse_seen {γ : List SymbolId} {i : Item} (valid : lineGrammar.Valid γ i) :
    γ = (i.seen lineGrammar).reverse := by
  induction valid with
  | start => rfl
  | @predict γ i n q valid awaits rule ih =>
      -- the item that awaits the head has seen as little as the new one
      rw [ih, Item.seen, cursor_eq_zero_of_awaits awaits]
      rfl
  | @advance γ i x valid next inner ih =>
      rw [Item.seen_advance next, List.reverse_append, ← ih]
      rfl

/-- There is a nonterminal on the stack only if there is nothing else. -/
theorem stack_cases {γ : List SymbolId} {i : Item} (valid : lineGrammar.Valid γ i) :
    γ = [5] ∨ γ = [6] ∨ ∀ x ∈ γ, lineGrammar.IsTerminal x := by
  have hγ := eq_reverse_seen valid
  obtain ⟨r, hr, -⟩ := valid.exists_rule
  rw [Item.seen_of_rule? hr] at hγ
  rcases body_lineGrammar hr with ⟨hrule, -⟩ | ⟨-, hbody⟩ | hterminals
  · rcases valid.of_rule_zero hrule with ⟨-, rfl⟩ | ⟨-, rfl⟩
    · exact Or.inr (Or.inr nofun)
    · rw [start_lineGrammar]
      exact Or.inl rfl
  · rw [hbody] at hγ
    cases hcursor : i.cursor with
    | zero =>
        rw [hcursor] at hγ
        obtain rfl : γ = [] := hγ
        exact Or.inr (Or.inr nofun)
    | succ c =>
        rw [hcursor, List.take_of_length_le (by simp)] at hγ
        exact Or.inr (Or.inl hγ)
  · refine Or.inr (Or.inr fun x hx => hterminals x ?_)
    rw [hγ, List.mem_reverse] at hx
    exact List.mem_of_mem_take hx

theorem moves_instructionTree (k : Nat) (tokens : List (Token SymbolId)) :
    (instructionTree k tokens).moves = tokens.length + 1 := by
  rw [instructionTree, Tree.moves, Tree.movesAll_map_leaf]

theorem moves_lineTree (k : Nat) (tokens : List (Token SymbolId)) :
    (lineTree k tokens).moves = tokens.length + 3 := by
  rw [lineTree, Tree.moves, Tree.movesAll, Tree.movesAll, moves_instructionTree]

/-- Leaves take one move each. -/
theorem stackMoves_of_terminals {σ : List (StateId × Tree SymbolId RuleId)}
    (grows : ∀ e ∈ σ, e.2.Grows lineGrammar)
    (terminals : ∀ x ∈ stackSymbols σ, lineGrammar.IsTerminal x) :
    stackMoves σ = (stackLeaves σ).length := by
  induction σ with
  | nil => rfl
  | cons e σ ih =>
      obtain ⟨he, hσ⟩ := List.forall_mem_cons.mp grows
      obtain ⟨hx, hxs⟩ := List.forall_mem_cons.mp terminals
      obtain ⟨l, hl⟩ := he.exists_leaf hx
      rw [stackMoves, stackLeaves, ih hσ hxs, hl, List.length_append]
      rfl

/-- The moves that led to a stack are known from its leaves. -/
theorem stackMoves_le {sets : FirstFollow} {a : Automaton}
    (h : lineTable.Describes lineGrammar sets a) {σ : List (StateId × Tree SymbolId RuleId)}
    {q : StateId} (linked : a.Linked σ q) (grows : ∀ e ∈ σ, e.2.Grows lineGrammar) :
    stackMoves σ ≤ (stackLeaves σ).length + 4 := by
  obtain ⟨i, valid⟩ := linked.exists_valid h.serves
  have single : ∀ {x : SymbolId}, stackSymbols σ = [x] → ∃ p t, σ = [(p, t)] ∧ t.symbol = x := by
    intro x hx
    obtain ⟨e, σ, rfl, he, hσ⟩ := List.map_eq_cons_iff.mp hx
    obtain rfl := List.map_eq_nil_iff.mp hσ
    exact ⟨e.1, e.2, rfl, he⟩
  -- a nonterminal is alone on the stack, and its tree is one of the known ones
  rcases stack_cases valid with hline | hinstruction | hterminals
  · obtain ⟨p, t, rfl, ht⟩ := single hline
    have hderivation : lineGrammar.IsDerivationTree t :=
      ⟨ht.trans start_lineGrammar.symm, grows _ List.mem_cons_self⟩
    obtain ⟨k, f, tokens, -, rfl⟩ := isDerivationTree_iff.mp hderivation
    simp only [stackMoves, stackLeaves, List.nil_append, moves_lineTree, leaves_lineTree]
    omega
  · obtain ⟨p, t, rfl, ht⟩ := single hinstruction
    obtain ⟨k, f, tokens, -, rfl⟩ := exists_instructionTree (grows _ List.mem_cons_self) ht
    simp only [stackMoves, stackLeaves, List.nil_append, moves_instructionTree,
      leaves_instructionTree]
    omega
  · rw [stackMoves_of_terminals grows hterminals]
    omega

/-! ## Parses of lines -/

/-- **The moves that a parser of lines is allowed are enough**, whatever the items. -/
theorem exists_outcome {E : Type} (items : List (Except E (Token SymbolId))) :
    ∃ result, lineTable.parse (maxMoves items.length) items = some result ∧
      SlrTable.Outcome lineGrammar items result := by
  obtain ⟨a, hdescribes⟩ := SlrTable.describes_of_compile compile_lineGrammar
  have closed := (FirstFollow.compute_proper_closed lineGrammar).2
  rcases SlrTable.reaches_or_stops hdescribes items (maxMoves items.length) with
    ⟨c, hreach⟩ | ⟨m, c, result, hm, hreach, hstop, hends⟩
  · -- the stack after so many moves allows for fewer
    exfalso
    have stage := (SlrTable.stage_initial lineGrammar a items).of_reaches hdescribes hreach
    obtain ⟨σ, q, rest, linked, grows, hn, hitems⟩ := stage.exists_stack hdescribes
    have hmoves := stackMoves_le hdescribes linked grows
    have hlength : (stackLeaves σ).length ≤ items.length := by
      rw [hitems, List.length_append, List.length_map]
      omega
    rw [maxMoves] at hn
    omega
  · refine ⟨result, ?_, SlrTable.outcome_of_ends hdescribes closed
      (fun x _ => productive_lineGrammar) hreach hends⟩
    rw [SlrTable.parse, ParsingTable.parse_eq_run]
    exact ParsingTable.run_eq_some_of_reaches hreach hstop hm

end ShiftReduce.Assembly
