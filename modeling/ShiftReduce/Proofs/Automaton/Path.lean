import Mathlib.Data.List.Chain
import Mathlib.Data.List.Induction
import ShiftReduce.Proofs.Automaton.ValidItems

/-!
# Viable prefixes

Where the automaton goes on a sequence of symbols, and with what label, is said here by the grammar
alone. An item belongs to the state behind the sequence if it ends a chain of items (`Grammar.Chain`):
the first is of the accepting rule, each next one is of a rule for the symbol at which the one before it
stands, and what the items have seen is, one after the other, the sequence. So the automaton has a path
for the sequences that some chain spells, and for no others (`Automaton.path?_iff_chain`).

A chain says the same as the validity of its last item: predictions lengthen a chain, and an advance
moves the cursor of its end. A nonterminal that is predicted again and again lengthens it without any
symbols.
-/

namespace ShiftReduce

variable {g : Grammar}

/-! ## Chains of items -/

/-- The symbols before the cursor. -/
def Item.seen (g : Grammar) (i : Item) : List SymbolId :=
  ((g.rule? i.rule).elim [] fun r => r.body.toList).take i.cursor

theorem Item.seen_of_rule? {i : Item} {r : Rule} (hr : g.rule? i.rule = some r) :
    i.seen g = r.body.toList.take i.cursor := by
  rw [seen, hr, Option.elim_some]

theorem Item.seen_initial (g : Grammar) (q : RuleId) : (Item.initial q).seen g = [] :=
  List.take_zero

theorem Item.seen_advance {i : Item} {x : SymbolId} (next : i.next? g = some x) :
    i.advance.seen g = i.seen g ++ [x] := by
  obtain ⟨r, hr, -⟩ := Option.bind_eq_some_iff.mp next
  rw [next?_of_rule? hr] at next
  rw [seen_of_rule? hr, seen_of_rule? (i := i.advance) hr]
  show r.body.toList.take (i.cursor + 1) = _
  rw [List.take_add_one, next, Option.toList_some]

namespace Grammar

/-- The item is of a given rule for the symbol at which the other stands. -/
def Opens (g : Grammar) (i j : Item) : Prop :=
  ∃ k r, j.rule = k + 1 ∧ g.rules[k]? = some r ∧ i.next? g = some r.head

/-- The items `outer` and then `i` are a chain, and they have seen `w`. -/
structure Chain (g : Grammar) (outer : List Item) (i : Item) (w : List SymbolId) : Prop where
  root : (outer ++ [i]).head?.map Item.rule = some 0
  opens : (outer ++ [i]).IsChain g.Opens
  inside : ∃ r, g.rule? i.rule = some r ∧ i.cursor ≤ r.body.size
  spells : w = (outer ++ [i]).flatMap (Item.seen g)

namespace Chain

variable {outer : List Item} {i j : Item} {w : List SymbolId}

theorem single {r : Rule} (hi : i.rule = 0) (hr : g.rule? i.rule = some r)
    (hle : i.cursor ≤ r.body.size) : g.Chain [] i (i.seen g) where
  root := congrArg some hi
  opens := .singleton i
  inside := ⟨r, hr, hle⟩
  spells := by simp

/-- A chain goes on with an item of a rule for the symbol at which it ends. -/
theorem snoc (h : g.Chain outer i w) (opens : g.Opens i j) {r : Rule}
    (hr : g.rule? j.rule = some r) (hle : j.cursor ≤ r.body.size) :
    g.Chain (outer ++ [i]) j (w ++ j.seen g) where
  root := by
    rw [List.head?_append_of_ne_nil _ (List.concat_ne_nil i outer)]
    exact h.root
  opens := by
    refine List.isChain_append.mpr ⟨h.opens, .singleton j, fun k hk l hl => ?_⟩
    obtain rfl : i = k := by simpa using hk
    obtain rfl : j = l := by simpa using hl
    exact opens
  inside := ⟨r, hr, hle⟩
  spells := by rw [List.flatMap_append, ← h.spells, List.flatMap_singleton]

/-- A chain is a shorter one and then an item, or it is one item of the accepting rule. -/
theorem of_snoc (h : g.Chain (outer ++ [i]) j w) :
    ∃ u, g.Chain outer i u ∧ g.Opens i j ∧ w = u ++ j.seen g := by
  obtain ⟨hinit, -, hlast⟩ := List.isChain_append.mp h.opens
  have opens : g.Opens i j := hlast i (by simp) j (by simp)
  obtain ⟨k, q, -, -, next⟩ := id opens
  obtain ⟨r, hr, hx⟩ := Option.bind_eq_some_iff.mp next
  refine ⟨_, ⟨?_, hinit, ⟨r, hr, ?_⟩, rfl⟩, opens, ?_⟩
  · have root := h.root
    rwa [List.head?_append_of_ne_nil _ (List.concat_ne_nil i outer)] at root
  · exact Nat.le_of_lt (Array.getElem?_eq_some_iff.mp hx).1
  · rw [h.spells, List.flatMap_append, List.flatMap_singleton]

/-- The cursor at the end of a chain moves on. -/
theorem advance (h : g.Chain outer i w) {x : SymbolId} (next : i.next? g = some x) :
    g.Chain outer i.advance (w ++ [x]) := by
  obtain ⟨r, hr, hx⟩ := Option.bind_eq_some_iff.mp next
  have hle : i.advance.cursor ≤ r.body.size := (Array.getElem?_eq_some_iff.mp hx).1
  rcases List.eq_nil_or_concat' outer with rfl | ⟨outer, j, rfl⟩
  · have hw : w = i.seen g := by simpa using h.spells
    have hrule : i.advance.rule = 0 := Option.some.inj h.root
    rw [hw, ← Item.seen_advance next]
    exact single hrule hr hle
  · obtain ⟨u, hu, opens, rfl⟩ := h.of_snoc
    rw [List.append_assoc, ← Item.seen_advance next]
    exact hu.snoc opens hr hle

end Chain

/-! ## Chains and valid items -/

/-- A rule that is begun is valid at each place of its body, behind what stands before the place. -/
theorem Valid.of_seen {γ : List SymbolId} {q : RuleId} (begun : g.Valid γ (.initial q)) {r : Rule}
    (hr : g.rule? q = some r) {c : Nat} (hc : c ≤ r.body.size)
    (inner : g.endOfInput ∉ Item.seen g ⟨q, c⟩) :
    g.Valid ((Item.seen g ⟨q, c⟩).reverse ++ γ) ⟨q, c⟩ := by
  induction c with
  | zero => exact begun
  | succ c ih =>
      have hlt : c < r.body.toList.length := by rwa [Array.length_toList]
      have next : Item.next? g ⟨q, c⟩ = some r.body.toList[c] := by
        rw [Item.next?_of_rule? (i := ⟨q, c⟩) hr, List.getElem?_eq_getElem hlt]
      have hseen : Item.seen g ⟨q, c + 1⟩ = Item.seen g ⟨q, c⟩ ++ [r.body.toList[c]] :=
        Item.seen_advance next
      rw [hseen, List.mem_append, not_or, List.mem_singleton] at inner
      rw [hseen, List.reverse_append]
      exact (ih (Nat.le_of_succ_le hc) inner.1).advance next (Ne.symm inner.2)

/-- A valid item ends a chain. -/
theorem Valid.exists_chain {γ : List SymbolId} {i : Item} (h : g.Valid γ i) :
    ∃ outer, g.Chain outer i γ.reverse := by
  induction h with
  | start => exact ⟨[], .single (i := .initial 0) rfl rfl (Nat.zero_le _)⟩
  | @predict γ i n q h awaits rule ih =>
      obtain ⟨outer, hchain⟩ := ih
      obtain ⟨k, r, rfl, hr, rfl⟩ := mem_rulesOf.mp rule
      obtain ⟨next, -⟩ := Item.awaits?_eq_some_iff.mp awaits
      have hlonger := hchain.snoc (j := .initial (k + 1)) ⟨k, r, rfl, hr, next⟩ hr (Nat.zero_le _)
      rw [Item.seen_initial, List.append_nil] at hlonger
      exact ⟨_, hlonger⟩
  | advance h next inner ih =>
      obtain ⟨outer, hchain⟩ := ih
      rw [List.reverse_cons]
      exact ⟨outer, hchain.advance next⟩

/-- The end of a chain is a valid item, unless the end marker has been seen. -/
theorem Chain.valid {outer : List Item} {i : Item} {w : List SymbolId} (h : g.Chain outer i w)
    (inner : g.endOfInput ∉ w) : g.Valid w.reverse i := by
  induction outer using List.reverseRecOn generalizing i w with
  | nil =>
      obtain ⟨q, c⟩ := i
      obtain rfl : q = 0 := Option.some.inj h.root
      obtain rfl : w = Item.seen g ⟨0, c⟩ := by simpa using h.spells
      obtain ⟨r, hr, hc⟩ := h.inside
      have hvalid := Valid.start.of_seen hr hc inner
      rwa [List.append_nil] at hvalid
  | append_singleton outer j ih =>
      obtain ⟨q, c⟩ := i
      obtain ⟨u, hu, ⟨k, r, hq, hr, next⟩, rfl⟩ := h.of_snoc
      obtain rfl : q = k + 1 := hq
      rw [List.mem_append, not_or] at inner
      -- the last item but one awaits the head of the last rule, which is thus begun
      have awaits : j.awaits? g = some r.head :=
        Item.awaits?_eq_some_iff.mpr ⟨next, isNonterminal_head (Array.mem_of_getElem? hr)⟩
      have begun : g.Valid u.reverse (.initial (k + 1)) :=
        (ih hu inner.1).predict awaits (mem_rulesOf.mpr ⟨k, r, rfl, hr, rfl⟩)
      obtain ⟨r', hr', hc⟩ := h.inside
      rw [List.reverse_append]
      exact begun.of_seen hr' hc inner.2

/-- **Validity is the end of a chain.** -/
theorem valid_reverse_iff {w : List SymbolId} (inner : g.endOfInput ∉ w) {i : Item} :
    g.Valid w.reverse i ↔ ∃ outer, g.Chain outer i w := by
  constructor
  · intro hvalid
    have := hvalid.exists_chain
    rwa [List.reverse_reverse] at this
  · rintro ⟨outer, hchain⟩
    exact hchain.valid inner

end Grammar

/-! ## Paths -/

namespace Automaton

variable {a : Automaton}

/-- Where the automaton goes from a state on a sequence of symbols. -/
def path? (a : Automaton) (i : StateId) : List SymbolId → Option StateId
  | [] => some i
  | x :: w => (a.transition? i x).bind fun j => a.path? j w

theorem path?_append (i : StateId) (u v : List SymbolId) :
    a.path? i (u ++ v) = (a.path? i u).bind fun j => a.path? j v := by
  induction u generalizing i with
  | nil => rfl
  | cons x u ih =>
      rw [List.cons_append, path?, path?, Option.bind_assoc]
      simp only [ih]

theorem path?_snoc (i : StateId) (w : List SymbolId) (x : SymbolId) :
    a.path? i (w ++ [x]) = (a.path? i w).bind fun j => a.transition? j x := by
  simp only [path?_append, path?, Option.bind_fun_some]

/-- A path from the start is what lies under some stack of trees. -/
theorem path?_eq_some_iff {w : List SymbolId} {q : StateId} : a.path? 0 w = some q ↔
    ∃ σ : List (StateId × Tree SymbolId RuleId), a.Linked σ q ∧ stackSymbols σ = w.reverse := by
  constructor
  · intro hpath
    induction w using List.reverseRecOn generalizing q with
    | nil =>
        obtain rfl : 0 = q := Option.some.inj hpath
        exact ⟨[], .start, rfl⟩
    | append_singleton w x ih =>
        rw [path?_snoc] at hpath
        obtain ⟨p, hp, edge⟩ := Option.bind_eq_some_iff.mp hpath
        obtain ⟨σ, linked, hσ⟩ := ih hp
        refine ⟨(p, .leaf ⟨x, ""⟩) :: σ, linked.push edge, ?_⟩
        rw [List.reverse_append, ← hσ]
        rfl
  · rintro ⟨σ, linked, hσ⟩
    rw [← List.reverse_eq_iff] at hσ
    subst hσ
    induction linked with
    | start => rfl
    | push linked edge ih =>
        rw [stackSymbols, List.map_cons, List.reverse_cons, path?_snoc]
        rw [stackSymbols] at ih
        rw [ih, Option.bind_some, edge]

/-- There is a path for all that stands before a valid item. -/
theorem Serves.exists_linked (serves : a.Serves g) {γ : List SymbolId} {i : Item}
    (h : g.Valid γ i) :
    ∃ (σ : List (StateId × Tree SymbolId RuleId)) (q : StateId), a.Linked σ q ∧
      stackSymbols σ = γ := by
  induction h with
  | start => exact ⟨[], 0, .start, rfl⟩
  | predict h awaits rule ih => exact ih
  | @advance γ i x h next inner ih =>
      obtain ⟨σ, p, linked, rfl⟩ := ih
      obtain ⟨q, edge⟩ := linked.exists_transition serves h next inner
      exact ⟨(p, .leaf ⟨x, ""⟩) :: σ, q, linked.push edge, rfl⟩

/-- **The automaton recognises the viable prefixes.** On a sequence without the end marker it has a path
just if some chain of items has seen the sequence, and the label at the end of the path has the ends of
these chains and no other items. -/
theorem path?_iff_chain (h : build g = .ok a) {w : List SymbolId} (inner : g.endOfInput ∉ w) :
    (∀ q, a.path? 0 w = some q → ∃ label, a.label? q = some label ∧
      ∀ i, i ∈ label ↔ ∃ outer, g.Chain outer i w) ∧
    ((∃ q, a.path? 0 w = some q) ↔ ∃ outer i, g.Chain outer i w) := by
  have serves := serves_of_build h
  refine ⟨fun q hpath => ?_, ⟨?_, ?_⟩⟩
  · obtain ⟨σ, linked, hσ⟩ := path?_eq_some_iff.mp hpath
    obtain ⟨items, hlabel⟩ := linked.exists_label serves
    refine ⟨_, hlabel, fun i => ?_⟩
    rw [linked.mem_label_iff serves hlabel, hσ, Grammar.valid_reverse_iff inner]
  · rintro ⟨q, hpath⟩
    obtain ⟨σ, linked, hσ⟩ := path?_eq_some_iff.mp hpath
    obtain ⟨i, hvalid⟩ := linked.exists_valid serves
    rw [hσ, Grammar.valid_reverse_iff inner] at hvalid
    obtain ⟨outer, hchain⟩ := hvalid
    exact ⟨outer, i, hchain⟩
  · rintro ⟨outer, i, hchain⟩
    obtain ⟨σ, q, linked, hσ⟩ := serves.exists_linked (hchain.valid inner)
    exact ⟨q, path?_eq_some_iff.mpr ⟨σ, linked, hσ⟩⟩

theorem isOk_build_repetition : (build repetition).isOk = true := by decide +kernel

/-- Behind `LIST OPTION` the automaton of `repetition` is in a state, and `b` is awaited there. -/
theorem path?_repetition : ∃ a, build repetition = .ok a ∧ repetition.endOfInput ∉ [3, 4] ∧
    (∃ q label, a.path? 0 [3, 4] = some q ∧ a.label? q = some label ∧ (⟨1, 2⟩ : Item) ∈ label) ∧
    ∃ outer i, repetition.Chain outer i [3, 4] := by
  have hbuild := eq_ok_valueOf isOk_build_repetition
  have hinner : repetition.endOfInput ∉ [3, 4] := by decide +kernel
  have hchain : repetition.Chain [⟨0, 0⟩] ⟨1, 2⟩ [3, 4] := by
    have hrule : repetition.rule? 1 = some ⟨"MORE", 3, #[3, 4, 1]⟩ := by decide +kernel
    have hnext : Item.next? repetition ⟨0, 0⟩ = some 3 := by decide +kernel
    exact ⟨rfl, .cons_cons ⟨0, _, rfl, hrule, hnext⟩ (.singleton _), ⟨_, hrule, by decide⟩,
      by decide +kernel⟩
  obtain ⟨hlabels, hpaths⟩ := path?_iff_chain hbuild hinner
  obtain ⟨q, hpath⟩ := hpaths.mpr ⟨_, _, hchain⟩
  obtain ⟨label, hlabel, hmem⟩ := hlabels q hpath
  exact ⟨_, hbuild, hinner, ⟨q, label, hpath, hlabel, (hmem _).mpr ⟨_, hchain⟩⟩, _, _, hchain⟩

end Automaton

end ShiftReduce
