import Mathlib.Logic.Relation
import ShiftReduce.Grammar.Definition
import ShiftReduce.Proofs.Tree
import ShiftReduce.SlrTable.Parsing

/-!
# Derivations

What a grammar derives, said twice. By rewriting: a rule replaces its head by its body somewhere in
a sequence of symbols, and a sentence is what the start symbol derives in terminals. By trees: each
inner node is a given rule, and each leaf a terminal. The two agree (`isSentence_iff_exists_tree`),
so a sentence can be parsed along a tree and a tree be read as a derivation.
-/

namespace ShiftReduce

namespace Grammar

variable {g : Grammar}

/-! ## Kinds of symbols -/

def IsTerminal (g : Grammar) (x : SymbolId) : Prop :=
  (g.symbol? x).map Symbol.kind = some .terminal

instance (g : Grammar) (x : SymbolId) : Decidable (g.IsTerminal x) :=
  inferInstanceAs (Decidable (_ = _))

theorem isNonterminal_iff_kind {x : SymbolId} :
    g.isNonterminal x = true ↔ (g.symbol? x).map Symbol.kind = some .nonterminal :=
  Vocabulary.isNonterminal_iff

theorem eq_endOfInput_iff_kind {x : SymbolId} :
    x = g.endOfInput ↔ (g.symbol? x).map Symbol.kind = some .endOfInput :=
  Vocabulary.eq_endOfInput_iff

theorem IsTerminal.ne_endOfInput {x : SymbolId} (h : g.IsTerminal x) : x ≠ g.endOfInput := by
  intro heq
  rw [eq_endOfInput_iff_kind] at heq
  exact SymbolKind.noConfusion (Option.some.inj (h.symm.trans heq))

theorem ne_endOfInput_of_isNonterminal {x : SymbolId} (h : g.isNonterminal x = true) :
    x ≠ g.endOfInput := by
  intro heq
  rw [eq_endOfInput_iff_kind] at heq
  exact SymbolKind.noConfusion (Option.some.inj ((isNonterminal_iff_kind.mp h).symm.trans heq))

theorem IsTerminal.not_isNonterminal {x : SymbolId} (h : g.IsTerminal x) :
    ¬ g.isNonterminal x = true := by
  intro hn
  exact SymbolKind.noConfusion (Option.some.inj (h.symm.trans (isNonterminal_iff_kind.mp hn)))

theorem start_ne_endOfInput (g : Grammar) : g.start ≠ g.endOfInput :=
  ne_endOfInput_of_isNonterminal g.start_nonterminal

theorem isNonterminal_head {r : Rule} (h : r ∈ g.rules) : g.isNonterminal r.head = true :=
  isNonterminal_iff_kind.mpr (g.rules_wellFormed.head r h)

theorem ne_endOfInput_of_mem_body {r : Rule} (h : r ∈ g.rules) {x : SymbolId}
    (hx : x ∈ r.body) : x ≠ g.endOfInput := by
  obtain ⟨s, hs, hkind⟩ := g.rules_wellFormed.body r h x hx
  intro heq
  rw [eq_endOfInput_iff_kind] at heq
  have hs' : g.symbol? x = some s := hs
  rw [hs', Option.map_some] at heq
  exact hkind (Option.some.inj heq)

/-- A symbol of a body is a terminal or a nonterminal. -/
theorem isTerminal_or_isNonterminal {r : Rule} (h : r ∈ g.rules) {x : SymbolId}
    (hx : x ∈ r.body) : g.IsTerminal x ∨ g.isNonterminal x = true := by
  obtain ⟨s, hs, hkind⟩ := g.rules_wellFormed.body r h x hx
  have hs' : g.symbol? x = some s := hs
  rw [isNonterminal_iff_kind, IsTerminal, hs', Option.map_some]
  cases hk : s.kind with
  | terminal => exact Or.inl rfl
  | nonterminal => exact Or.inr rfl
  | endOfInput => exact absurd hk hkind

/-! ## Rewriting -/

/-- A rule replaces its head by its body. -/
inductive Rewrites (g : Grammar) : List SymbolId → List SymbolId → Prop
  | rule (a b : List SymbolId) {r : Rule} (h : r ∈ g.rules) :
      Rewrites g (a ++ r.head :: b) (a ++ r.body.toList ++ b)

/-- Rules replace heads by bodies any number of times. -/
def DerivesTo (g : Grammar) : List SymbolId → List SymbolId → Prop :=
  Relation.ReflTransGen g.Rewrites

/-- A sequence of terminals that the start symbol derives. -/
def IsSentence (g : Grammar) (w : List SymbolId) : Prop :=
  g.DerivesTo [g.start] w ∧ ∀ x ∈ w, g.IsTerminal x

/-- The beginning of a sentence. -/
def IsViable (g : Grammar) (w : List SymbolId) : Prop := ∃ v, g.IsSentence (w ++ v)

/-- A symbol that derives a sequence of terminals. -/
def Productive (g : Grammar) (x : SymbolId) : Prop :=
  ∃ w, g.DerivesTo [x] w ∧ ∀ y ∈ w, g.IsTerminal y

/-- A symbol that occurs in something that the start symbol derives. -/
def Reachable (g : Grammar) (x : SymbolId) : Prop :=
  ∃ a b, g.DerivesTo [g.start] (a ++ x :: b)

theorem DerivesTo.refl (w : List SymbolId) : g.DerivesTo w w := Relation.ReflTransGen.refl

theorem DerivesTo.trans {u v w : List SymbolId} (h₁ : g.DerivesTo u v) (h₂ : g.DerivesTo v w) :
    g.DerivesTo u w :=
  Relation.ReflTransGen.trans h₁ h₂

theorem DerivesTo.single {u v : List SymbolId} (h : g.Rewrites u v) : g.DerivesTo u v :=
  Relation.ReflTransGen.single h

theorem DerivesTo.of_rule {r : Rule} (h : r ∈ g.rules) : g.DerivesTo [r.head] r.body.toList := by
  have := Rewrites.rule [] [] h
  rw [List.nil_append, List.nil_append, List.append_nil] at this
  exact DerivesTo.single this

/-- A derivation goes on between any symbols. -/
theorem DerivesTo.between {u v : List SymbolId} (h : g.DerivesTo u v) (a b : List SymbolId) :
    g.DerivesTo (a ++ u ++ b) (a ++ v ++ b) := by
  refine Relation.ReflTransGen.lift (fun w => a ++ w ++ b) ?_ u v h
  rintro _ _ ⟨c, d, hr⟩
  have := Rewrites.rule (a ++ c) (d ++ b) hr
  simpa only [Function.onFun, List.append_assoc, List.cons_append] using this

theorem DerivesTo.append {u u' v v' : List SymbolId} (h₁ : g.DerivesTo u v)
    (h₂ : g.DerivesTo u' v') : g.DerivesTo (u ++ u') (v ++ v') := by
  have hleft := h₁.between [] u'
  have hright := h₂.between v []
  rw [List.nil_append, List.nil_append] at hleft
  rw [List.append_nil, List.append_nil] at hright
  exact hleft.trans hright

theorem reachable_start (g : Grammar) : g.Reachable g.start := ⟨[], [], .refl _⟩

theorem Reachable.of_mem_body {r : Rule} (hr : r ∈ g.rules) (h : g.Reachable r.head)
    {x : SymbolId} (hx : x ∈ r.body) : g.Reachable x := by
  obtain ⟨a, b, hab⟩ := h
  obtain ⟨c, d, hcd⟩ := List.append_of_mem (Array.mem_toList_iff.mpr hx)
  refine ⟨a ++ c, d ++ b, hab.trans ?_⟩
  have := DerivesTo.single (Rewrites.rule a b hr)
  rw [hcd] at this
  simpa only [List.append_assoc, List.cons_append] using this

theorem IsTerminal.productive {x : SymbolId} (h : g.IsTerminal x) : g.Productive x :=
  ⟨[x], .refl _, by simpa using h⟩

/-! ## Derivation trees -/

/-- The head and the body of a given rule; the accepting rule is not given. -/
def given? (g : Grammar) : RuleId → Option (SymbolId × List SymbolId)
  | 0 => none
  | r + 1 => g.production? (r + 1)

theorem given?_eq_some_iff {r : RuleId} {x : SymbolId} {body : List SymbolId} :
    g.given? r = some (x, body) ↔
      ∃ i rule, r = i + 1 ∧ g.rules[i]? = some rule ∧ rule.head = x ∧ rule.body.toList = body := by
  rcases r with _ | i
  · constructor
    · intro h
      cases h
    · rintro ⟨i, rule, h, -⟩
      cases h
  · simp only [given?, production?, rule?, Option.map_eq_some_iff, Prod.mk.injEq]
    constructor
    · rintro ⟨rule, hrule, hx, hbody⟩
      exact ⟨i, rule, rfl, hrule, hx, hbody⟩
    · rintro ⟨j, rule, hij, hrule, hx, hbody⟩
      obtain rfl : i = j := Nat.succ.inj hij
      exact ⟨rule, hrule, hx, hbody⟩

end Grammar

/-- The tree is built by given rules over terminals. -/
structure Tree.Grows (g : Grammar) (t : Tree SymbolId RuleId) : Prop where
  fits : t.Fits g.given?
  terminals : ∀ l ∈ t.leaves, g.IsTerminal l.symbol

instance (g : Grammar) (t : Tree SymbolId RuleId) : Decidable (t.Grows g) :=
  decidable_of_iff (t.Fits g.given? ∧ ∀ l ∈ t.leaves, g.IsTerminal l.symbol)
    ⟨fun h => ⟨h.1, h.2⟩, fun h => ⟨h.fits, h.terminals⟩⟩

/-- A derivation tree of the grammar. -/
structure Grammar.IsDerivationTree (g : Grammar) (t : Tree SymbolId RuleId) : Prop where
  root : t.symbol = g.start
  grows : t.Grows g

instance (g : Grammar) (t : Tree SymbolId RuleId) : Decidable (g.IsDerivationTree t) :=
  decidable_of_iff (t.symbol = g.start ∧ t.Grows g)
    ⟨fun h => ⟨h.1, h.2⟩, fun h => ⟨h.root, h.grows⟩⟩

namespace Tree

variable {g : Grammar}

theorem grows_leaf {t : Token SymbolId} (h : g.IsTerminal t.symbol) :
    (leaf t : Tree SymbolId RuleId).Grows g where
  fits := .leaf t
  terminals l hl := by
    obtain rfl : l = t := by simpa [leaves] using hl
    exact h

theorem grows_node {x : SymbolId} {r : RuleId} {ts : List (Tree SymbolId RuleId)}
    (rule : g.given? r = some (x, ts.map symbol)) (children : ∀ t ∈ ts, t.Grows g) :
    (node x r ts).Grows g where
  fits := .node rule fun t ht => (children t ht).fits
  terminals l hl := by
    rw [leaves, mem_leavesAll] at hl
    obtain ⟨t, ht, hl⟩ := hl
    exact (children t ht).terminals l hl

theorem Grows.of_node {x : SymbolId} {r : RuleId} {ts : List (Tree SymbolId RuleId)}
    (h : (node x r ts).Grows g) :
    g.given? r = some (x, ts.map symbol) ∧ ∀ t ∈ ts, t.Grows g := by
  obtain ⟨rule, children⟩ := h.fits.of_node
  refine ⟨rule, fun t ht => ⟨children t ht, fun l hl => h.terminals l ?_⟩⟩
  rw [leaves, mem_leavesAll]
  exact ⟨t, ht, hl⟩

/-- Induction over trees that are built by given rules over terminals. -/
@[elab_as_elim]
theorem Grows.induction {motive : (t : Tree SymbolId RuleId) → t.Grows g → Prop}
    (leaf : ∀ (l : Token SymbolId) (hl : g.IsTerminal l.symbol), motive (.leaf l) (grows_leaf hl))
    (node : ∀ (k : Nat) (q : Rule) (ts : List (Tree SymbolId RuleId)) (hq : g.rules[k]? = some q)
      (hbody : q.body.toList = ts.map symbol) (children : ∀ t ∈ ts, t.Grows g)
      (_ : ∀ t ht, motive t (children t ht)), motive (.node q.head (k + 1) ts)
        (grows_node (Grammar.given?_eq_some_iff.mpr ⟨k, q, rfl, hq, rfl, hbody⟩) children))
    {t : Tree SymbolId RuleId} (h : t.Grows g) : motive t h := by
  obtain ⟨fits, terminals⟩ := id h
  induction fits with
  | leaf l => exact leaf l (terminals l (by simp [leaves]))
  | node rule _ ih =>
      obtain ⟨k, q, rfl, hq, rfl, hbody⟩ := Grammar.given?_eq_some_iff.mp rule
      have children := h.of_node.2
      exact node k q _ hq hbody children fun t ht => ih t ht (children t ht) (children t ht).terminals

/-- The root of a node is a nonterminal. -/
theorem Grows.isNonterminal {x : SymbolId} {r : RuleId} {ts : List (Tree SymbolId RuleId)}
    (h : (node x r ts).Grows g) : g.isNonterminal x = true := by
  obtain ⟨i, rule, -, hrule, rfl, -⟩ := Grammar.given?_eq_some_iff.mp h.of_node.1
  exact Grammar.isNonterminal_head (Array.mem_of_getElem? hrule)

/-- A tree with a terminal at its root is a leaf. -/
theorem Grows.exists_leaf {t : Tree SymbolId RuleId} (h : t.Grows g)
    (root : g.IsTerminal t.symbol) : ∃ l, t = .leaf l := by
  cases t with
  | leaf l => exact ⟨l, rfl⟩
  | node x r ts => exact absurd h.isNonterminal root.not_isNonterminal

/-- A tree with a nonterminal at its root is a node, of a rule of this nonterminal. -/
theorem Grows.exists_node {t : Tree SymbolId RuleId} (h : t.Grows g) {x : SymbolId}
    (root : t.symbol = x) (inner : g.isNonterminal x = true) :
    ∃ r us, t = .node x r us ∧ g.given? r = some (x, us.map symbol) ∧ ∀ u ∈ us, u.Grows g := by
  subst root
  cases t with
  | leaf l => exact absurd inner (h.terminals l (by simp [leaves])).not_isNonterminal
  | node x r us => exact ⟨r, us, rfl, h.of_node⟩

/-- Trees with terminals at their roots are leaves. -/
theorem exists_map_leaf {ts : List (Tree SymbolId RuleId)} (grows : ∀ t ∈ ts, t.Grows g)
    (roots : ∀ x ∈ ts.map symbol, g.IsTerminal x) :
    ∃ tokens : List (Token SymbolId), ts = tokens.map .leaf ∧
      tokens.map Token.symbol = ts.map symbol := by
  induction ts with
  | nil => exact ⟨[], rfl, rfl⟩
  | cons t ts ih =>
      obtain ⟨ht, hts⟩ := List.forall_mem_cons.mp grows
      obtain ⟨hroot, hroots⟩ := List.forall_mem_cons.mp roots
      obtain ⟨l, rfl⟩ := ht.exists_leaf hroot
      obtain ⟨tokens, rfl, hsymbols⟩ := ih hts hroots
      refine ⟨l :: tokens, rfl, ?_⟩
      rw [List.map_cons, hsymbols]
      rfl

theorem Grows.symbol_ne_endOfInput {t : Tree SymbolId RuleId} (h : t.Grows g) :
    t.symbol ≠ g.endOfInput := by
  cases t with
  | leaf t => exact (h.terminals t (by simp [leaves])).ne_endOfInput
  | node x r ts => exact Grammar.ne_endOfInput_of_isNonterminal h.isNonterminal

theorem terminals_leavesAll {ts : List (Tree SymbolId RuleId)} (h : ∀ t ∈ ts, t.Grows g) :
    ∀ l ∈ leavesAll ts, g.IsTerminal l.symbol := by
  intro l hl
  obtain ⟨t, ht, hl⟩ := mem_leavesAll.mp hl
  exact (h t ht).terminals l hl

/-! ## Trees are derivations -/

theorem derivesTo_leavesAll {ts : List (Tree SymbolId RuleId)}
    (h : ∀ t ∈ ts, g.DerivesTo [t.symbol] (t.leaves.map Token.symbol)) :
    g.DerivesTo (ts.map symbol) ((leavesAll ts).map Token.symbol) := by
  induction ts with
  | nil => exact .refl _
  | cons t ts ih =>
      rw [List.map_cons, leavesAll, List.map_append, ← List.singleton_append]
      exact (h t List.mem_cons_self).append (ih fun u hu => h u (List.mem_cons_of_mem _ hu))

theorem Fits.derivesTo {t : Tree SymbolId RuleId} (h : t.Fits g.given?) :
    g.DerivesTo [t.symbol] (t.leaves.map Token.symbol) := by
  induction h with
  | leaf t => exact .refl _
  | @node x r ts rule children ih =>
      obtain ⟨i, rule, -, hrule, rfl, hbody⟩ := Grammar.given?_eq_some_iff.mp rule
      have hfirst := Grammar.DerivesTo.of_rule (Array.mem_of_getElem? hrule)
      rw [hbody] at hfirst
      exact hfirst.trans (derivesTo_leavesAll ih)

/-- The root of a tree derives its leaves, which are terminals. -/
theorem Grows.productive {t : Tree SymbolId RuleId} (h : t.Grows g) : g.Productive t.symbol := by
  refine ⟨t.leaves.map Token.symbol, h.fits.derivesTo, fun y hy => ?_⟩
  obtain ⟨l, hl, rfl⟩ := List.mem_map.mp hy
  exact h.terminals l hl

/-! ## Derivations are trees -/

/-- One rewriting, undone on trees: the trees of a body become one tree. -/
theorem exists_forest_of_rewrites {u v : List SymbolId} (h : g.Rewrites u v)
    {vs : List (Tree SymbolId RuleId)} (hv : vs.map symbol = v) (hvs : ∀ t ∈ vs, t.Grows g) :
    ∃ us : List (Tree SymbolId RuleId), us.map symbol = u ∧ (∀ t ∈ us, t.Grows g) ∧
      leavesAll us = leavesAll vs := by
  obtain ⟨a, b, hr⟩ := h
  rename_i r
  obtain ⟨front, right, rfl, hfront, hright⟩ := List.map_eq_append_iff.mp hv
  obtain ⟨left, children, rfl, hleft, hchildren⟩ := List.map_eq_append_iff.mp hfront
  obtain ⟨i, hi, heq⟩ := Array.mem_iff_getElem.mp hr
  have hrule : g.given? (i + 1) = some (r.head, children.map symbol) := by
    rw [Grammar.given?_eq_some_iff, hchildren]
    exact ⟨i, r, rfl, by rw [Array.getElem?_eq_getElem hi, heq], rfl, rfl⟩
  -- the trees of the body become the children of one tree, and the leaves stay as they are
  refine ⟨left ++ node r.head (i + 1) children :: right, ?_, ?_, ?_⟩
  · rw [List.map_append, List.map_cons, hleft, hright, symbol]
  · intro t ht
    rcases List.mem_append.mp ht with ht | ht
    · exact hvs t (by simp [ht])
    · rcases List.mem_cons.mp ht with rfl | ht
      · exact grows_node hrule fun t ht => hvs t (by simp [ht])
      · exact hvs t (by simp [ht])
  · simp only [leavesAll_append, leavesAll, leaves, List.append_assoc]

theorem exists_forest_of_derivesTo {u v : List SymbolId} (h : g.DerivesTo u v)
    {vs : List (Tree SymbolId RuleId)} (hv : vs.map symbol = v) (hvs : ∀ t ∈ vs, t.Grows g) :
    ∃ us : List (Tree SymbolId RuleId), us.map symbol = u ∧ (∀ t ∈ us, t.Grows g) ∧
      leavesAll us = leavesAll vs := by
  induction h using Relation.ReflTransGen.head_induction_on with
  | refl => exact ⟨vs, hv, hvs, rfl⟩
  | head hstep _ ih =>
      obtain ⟨ms, hm, hms, hleaves⟩ := ih
      obtain ⟨us, hu, hus, hleaves'⟩ := exists_forest_of_rewrites hstep hm hms
      exact ⟨us, hu, hus, hleaves'.trans hleaves⟩

/-- Whatever is derived in terminals has trees over any tokens for these terminals. -/
theorem exists_forest {u : List SymbolId} {w : List (Token SymbolId)}
    (h : g.DerivesTo u (w.map Token.symbol)) (hw : ∀ l ∈ w, g.IsTerminal l.symbol) :
    ∃ us : List (Tree SymbolId RuleId), us.map symbol = u ∧ (∀ t ∈ us, t.Grows g) ∧
      leavesAll us = w := by
  have hsymbols : (w.map leaf).map (symbol (R := RuleId)) = w.map Token.symbol := by
    rw [List.map_map]
    rfl
  have hgrow : ∀ t ∈ w.map leaf, (t : Tree SymbolId RuleId).Grows g := by
    intro t ht
    obtain ⟨l, hl, rfl⟩ := List.mem_map.mp ht
    exact grows_leaf (hw l hl)
  obtain ⟨us, hu, hus, hleaves⟩ := exists_forest_of_derivesTo h hsymbols hgrow
  exact ⟨us, hu, hus, hleaves.trans (leavesAll_map_leaf w)⟩

theorem exists_tree {x : SymbolId} {w : List (Token SymbolId)}
    (h : g.DerivesTo [x] (w.map Token.symbol)) (hw : ∀ l ∈ w, g.IsTerminal l.symbol) :
    ∃ t : Tree SymbolId RuleId, t.symbol = x ∧ t.Grows g ∧ t.leaves = w := by
  obtain ⟨us, hu, hus, hleaves⟩ := exists_forest h hw
  obtain ⟨t, rest, rfl, hx, hrest⟩ := List.map_eq_cons_iff.mp hu
  obtain rfl : rest = [] := List.map_eq_nil_iff.mp hrest
  exact ⟨t, hx, hus t List.mem_cons_self, by simpa [leavesAll] using hleaves⟩

end Tree

namespace Grammar

variable {g : Grammar}

/-- A productive symbol is the root of some tree. -/
theorem Productive.exists_tree {x : SymbolId} (h : g.Productive x) :
    ∃ t : Tree SymbolId RuleId, t.symbol = x ∧ t.Grows g := by
  obtain ⟨w, hw, hterminal⟩ := h
  obtain ⟨t, hx, ht, -⟩ := Tree.exists_tree (g := g) (x := x) (w := w.map fun y => ⟨y, ""⟩)
    (by rwa [List.map_map, show Token.symbol ∘ (fun y : SymbolId => ⟨y, ""⟩) = id from rfl,
      List.map_id])
    (by
      intro l hl
      obtain ⟨y, hy, rfl⟩ := List.mem_map.mp hl
      exact hterminal y hy)
  exact ⟨t, hx, ht⟩

/-- **Sentences are the leaves of derivation trees**, whatever the texts of the tokens. -/
theorem isSentence_iff_exists_tree {w : List (Token SymbolId)} :
    g.IsSentence (w.map Token.symbol) ↔
      ∃ t : Tree SymbolId RuleId, g.IsDerivationTree t ∧ t.leaves = w := by
  constructor
  · rintro ⟨hw, hterminal⟩
    obtain ⟨t, hx, ht, hleaves⟩ := Tree.exists_tree hw fun l hl =>
      hterminal l.symbol (List.mem_map_of_mem hl)
    exact ⟨t, ⟨hx, ht⟩, hleaves⟩
  · rintro ⟨t, ⟨hx, ht⟩, rfl⟩
    refine ⟨hx ▸ ht.fits.derivesTo, fun x hxmem => ?_⟩
    obtain ⟨l, hl, rfl⟩ := List.mem_map.mp hxmem
    exact ht.terminals l hl

end Grammar

/-! ## A grammar with empty rules -/

/-- The value of a result that is known to have one. -/
def valueOf {ε α : Type} : (result : Except ε α) → result.isOk = true → α
  | .ok value, _ => value

theorem eq_ok_valueOf {ε α : Type} {result : Except ε α} (h : result.isOk = true) :
    result = .ok (valueOf result h) := by
  cases result with
  | ok value => rfl
  | error e => cases h

/-- Lists of `b`, each with an `a` before it or not. -/
def defineRepetition : DefinitionM Unit := do
  let a ← .terminal "a"
  let b ← .terminal "b"
  let _ ← .endOfInput "end"
  let list ← .nonterminal "LIST"
  let option ← .nonterminal "OPTION"
  let _ ← .rule "MORE" list [list, option, b]
  let _ ← .rule "DONE" list []
  let _ ← .rule "SOME" option [a]
  let _ ← .rule "NONE" option []

theorem isOk_defineRepetition : (Grammar.define defineRepetition).isOk = true := by
  decide +kernel

def repetition : Grammar := valueOf _ isOk_defineRepetition

end ShiftReduce
