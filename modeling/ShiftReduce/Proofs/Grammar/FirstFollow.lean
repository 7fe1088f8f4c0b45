import Mathlib.Data.Finset.Card
import Mathlib.Data.Finset.Prod
import Mathlib.Data.Finset.Range
import ShiftReduce.Grammar.FirstFollow
import ShiftReduce.Proofs.Grammar.Derivation

/-!
# The finished sets are closed

What is known of the symbols of a grammar is a set of facts (`FirstFollow.Knows`), and each step of
a pass adds facts of one aspect and tells truthfully whether it did (`FirstFollow.Adds`). As there
are only so many facts, the repeated passes come to an end with nothing left to find
(`repeatPass_ends`), and so `compute` obeys the rules by which it was found (`compute_proper_closed`).
-/

namespace ShiftReduce

/-- A symbol that can be in view where a rule is reduced. -/
def Grammar.IsLookahead (g : Grammar) (x : SymbolId) : Prop := g.IsTerminal x ∨ x = g.endOfInput

theorem Grammar.lt_size_of_kind {g : Grammar} {x : SymbolId} {k : SymbolKind}
    (h : (g.symbol? x).map Symbol.kind = some k) : x < g.vocabulary.size := by
  obtain ⟨s, hs, -⟩ := Option.map_eq_some_iff.mp h
  exact (Array.getElem?_eq_some_iff.mp hs).1

theorem Grammar.IsLookahead.lt_size {g : Grammar} {x : SymbolId} (h : g.IsLookahead x) :
    x < g.vocabulary.size := by
  rcases h with h | h
  · exact Grammar.lt_size_of_kind h
  · exact Grammar.lt_size_of_kind (Grammar.eq_endOfInput_iff_kind.mp h)

/-- The first symbol of a sequence of tokens, or the end marker. -/
def Grammar.ahead (g : Grammar) (w : List (Token SymbolId)) : SymbolId :=
  (w.head?.map Token.symbol).getD g.endOfInput

namespace FirstFollow

variable {g : Grammar} {s s' s'' : FirstFollow}

/-! ## Facts -/

/-- A single thing to know of a symbol. -/
inductive Fact where
  | nullable (x : SymbolId)
  | first (x t : SymbolId)
  | follow (x t : SymbolId)
deriving DecidableEq

/-- What a fact is about; each kind of pass is after one aspect. -/
inductive Aspect where
  | nullable
  | first
  | follow
deriving DecidableEq

def Fact.aspect : Fact → Aspect
  | .nullable _ => .nullable
  | .first _ _ => .first
  | .follow _ _ => .follow

def Knows (s : FirstFollow) : Fact → Prop
  | .nullable x => s.isNullable x = true
  | .first x t => t ∈ s.firstSet x
  | .follow x t => t ∈ s.followSet x

instance (s : FirstFollow) : DecidablePred s.Knows
  | .nullable x => inferInstanceAs (Decidable (s.isNullable x = true))
  | .first x t => inferInstanceAs (Decidable (t ∈ s.firstSet x))
  | .follow x t => inferInstanceAs (Decidable (t ∈ s.followSet x))

/-- The fact is about declared symbols, and has a symbol in it that can be a lookahead. -/
def Fact.Proper (g : Grammar) : Fact → Prop
  | .nullable x => x < g.vocabulary.size
  | .first x t => x < g.vocabulary.size ∧ g.IsLookahead t
  | .follow x t => x < g.vocabulary.size ∧ g.IsLookahead t

/-- There is room for each symbol, and only proper facts are known. -/
structure Proper (g : Grammar) (s : FirstFollow) : Prop where
  nullable_size : s.nullable.size = g.vocabulary.size
  first_size : s.first.size = g.vocabulary.size
  follow_size : s.follow.size = g.vocabulary.size
  facts : ∀ f, s.Knows f → f.Proper g

/-! ## Growth -/

/-- More is known of one aspect, and the same of the others. -/
structure Extends (g : Grammar) (k : Aspect) (s s' : FirstFollow) : Prop where
  proper : s'.Proper g
  kept : ∀ f, s.Knows f → s'.Knows f
  frame : ∀ f, f.aspect ≠ k → (s'.Knows f ↔ s.Knows f)

/-- An answer that extends what is known, with a flag that tells whether it has news. -/
structure Adds (g : Grammar) (k : Aspect) (s : FirstFollow) (a : FirstFollow × Bool) : Prop where
  extend : Extends g k s a.1
  quiet : a.2 = false → a.1 = s
  news : a.2 = true → ∃ f, f.aspect = k ∧ a.1.Knows f ∧ ¬ s.Knows f

theorem Extends.refl {k : Aspect} (h : s.Proper g) : Extends g k s s :=
  ⟨h, fun _ hf => hf, fun _ _ => Iff.rfl⟩

theorem Extends.trans {k : Aspect} (h₁ : Extends g k s s') (h₂ : Extends g k s' s'') :
    Extends g k s s'' where
  proper := h₂.proper
  kept f hf := h₂.kept f (h₁.kept f hf)
  frame f hf := (h₂.frame f hf).trans (h₁.frame f hf)

theorem Adds.nothing {k : Aspect} (h : s.Proper g) : Adds g k s (s, false) where
  extend := .refl h
  quiet _ := rfl
  news := nofun

/-- One answer after the other. -/
theorem Adds.seq {k : Aspect} {a b : FirstFollow × Bool} (h₁ : Adds g k s a)
    (h₂ : Adds g k a.1 b) : Adds g k s (b.1, a.2 || b.2) where
  extend := h₁.extend.trans h₂.extend
  quiet h := by
    obtain ⟨ha, hb⟩ := Bool.or_eq_false_iff.mp h
    exact (h₂.quiet hb).trans (h₁.quiet ha)
  news h := by
    rcases Bool.or_eq_true_iff.mp h with ha | hb
    · obtain ⟨f, hk, hf, hnew⟩ := h₁.news ha
      exact ⟨f, hk, h₂.extend.kept f hf, hnew⟩
    · obtain ⟨f, hk, hf, hnew⟩ := h₂.news hb
      exact ⟨f, hk, hf, fun hs => hnew (h₁.extend.kept f hs)⟩

/-- To add is to know some new facts of the aspect besides the old ones. -/
theorem Extends.of_knows_iff {k : Aspect} {new : Fact → Prop} (hs : s.Proper g)
    (nullable_size : s'.nullable.size = s.nullable.size)
    (first_size : s'.first.size = s.first.size) (follow_size : s'.follow.size = s.follow.size)
    (knows : ∀ f, s'.Knows f ↔ s.Knows f ∨ new f)
    (hnew : ∀ f, new f → f.aspect = k ∧ f.Proper g) : Extends g k s s' where
  proper := {
    nullable_size := nullable_size.trans hs.nullable_size
    first_size := first_size.trans hs.first_size
    follow_size := follow_size.trans hs.follow_size
    facts := fun f hf => ((knows f).mp hf).elim (hs.facts f) fun h => (hnew f h).2 }
  kept f hf := (knows f).mpr (Or.inl hf)
  frame f hf := by
    rw [knows f]
    exact or_iff_left fun h => hf (hnew f h).1

/-! ## The three ways to add -/

/-- What stands in an array after one place has been filled. -/
theorem getD_setIfInBounds {α : Type} {xs : Array α} {i : Nat} (hi : i < xs.size) (v d : α)
    (j : Nat) : (xs.setIfInBounds i v)[j]?.getD d = if j = i then v else xs[j]?.getD d := by
  rw [Array.getElem?_setIfInBounds]
  by_cases hj : j = i
  · subst hj
    rw [if_pos rfl, if_pos hi, if_pos rfl]
    rfl
  · rw [if_neg (Ne.symm hj), if_neg hj]

theorem knows_setNullable_iff (hs : s.Proper g) {x : SymbolId} (hx : x < g.vocabulary.size)
    (f : Fact) : ({ s with nullable := s.nullable.setIfInBounds x true } : FirstFollow).Knows f ↔
      s.Knows f ∨ f = .nullable x := by
  have hsize : x < s.nullable.size := by
    rw [hs.nullable_size]
    exact hx
  rcases f with (y | ⟨y, t⟩ | ⟨y, t⟩)
  · rw [Knows, isNullable, getD_setIfInBounds hsize]
    by_cases hy : y = x
    · simp [hy]
    · simp [hy, Knows, isNullable]
  · exact (or_iff_left nofun).symm
  · exact (or_iff_left nofun).symm

theorem knows_setFirst_iff (hs : s.Proper g) {x : SymbolId} (hx : x < g.vocabulary.size)
    (ts : TerminalSet) (f : Fact) :
    ({ s with first := s.first.setIfInBounds x (s.firstSet x ∪ ts) } : FirstFollow).Knows f ↔
      s.Knows f ∨ ∃ t ∈ ts, f = .first x t := by
  have hsize : x < s.first.size := by
    rw [hs.first_size]
    exact hx
  rcases f with (y | ⟨y, t⟩ | ⟨y, t⟩)
  · exact (or_iff_left nofun).symm
  · rw [Knows, firstSet, getD_setIfInBounds hsize]
    by_cases hy : y = x
    · simp [hy, Knows, OrderedSet.mem_union]
    · simp [hy, Knows, firstSet]
  · exact (or_iff_left nofun).symm

theorem knows_setFollow_iff (hs : s.Proper g) {x : SymbolId} (hx : x < g.vocabulary.size)
    (ts : TerminalSet) (f : Fact) :
    ({ s with follow := s.follow.setIfInBounds x (s.followSet x ∪ ts) } : FirstFollow).Knows f ↔
      s.Knows f ∨ ∃ t ∈ ts, f = .follow x t := by
  have hsize : x < s.follow.size := by
    rw [hs.follow_size]
    exact hx
  rcases f with (y | ⟨y, t⟩ | ⟨y, t⟩)
  · exact (or_iff_left nofun).symm
  · exact (or_iff_left nofun).symm
  · rw [Knows, followSet, getD_setIfInBounds hsize]
    by_cases hy : y = x
    · simp [hy, Knows, OrderedSet.mem_union]
    · simp [hy, Knows, followSet]

theorem adds_addNullable (hs : s.Proper g) {x : SymbolId} (hx : x < g.vocabulary.size) :
    Adds g .nullable s (s.addNullable x) := by
  unfold addNullable
  split
  · exact .nothing hs
  · next hold =>
    have hknows := knows_setNullable_iff hs hx
    refine ⟨.of_knows_iff hs Array.size_setIfInBounds rfl rfl hknows ?_, nofun, ?_⟩
    · rintro f rfl
      exact ⟨rfl, hx⟩
    · intro _
      exact ⟨.nullable x, rfl, (hknows _).mpr (Or.inr rfl), hold⟩

/-- A set that grows by a union has news just when the union is another set. -/
theorem adds_of_union {k : Aspect} (fact : SymbolId → Fact) {old new : TerminalSet}
    (hs : s.Proper g) (extend : Extends g k s s') (aspect : ∀ t, (fact t).aspect = k)
    (hold : ∀ t, s.Knows (fact t) ↔ t ∈ old) (hnew : ∀ t ∈ new, s'.Knows (fact t)) :
    Adds g k s (if old ∪ new = old then (s, false) else (s', true)) := by
  split
  · exact .nothing hs
  · next hgrown =>
    refine ⟨extend, nofun, fun _ => ?_⟩
    by_contra hno
    push Not at hno
    -- an element that is no news is in the old set, and then the union is this set
    apply hgrown
    apply OrderedSet.ext
    intro t
    rw [OrderedSet.mem_union]
    refine or_iff_left_of_imp fun ht => (hold t).mp ?_
    exact hno (fact t) (aspect t) (hnew t ht)

theorem adds_addFirst (hs : s.Proper g) {x : SymbolId} (hx : x < g.vocabulary.size)
    {ts : TerminalSet} (hts : ∀ t ∈ ts, g.IsLookahead t) :
    Adds g .first s (s.addFirst x ts) := by
  have hknows := knows_setFirst_iff hs hx ts
  refine adds_of_union (.first x) hs ?_ (fun _ => rfl) (fun _ => Iff.rfl) ?_
  · refine .of_knows_iff hs rfl Array.size_setIfInBounds rfl hknows ?_
    rintro f ⟨t, ht, rfl⟩
    exact ⟨rfl, hx, hts t ht⟩
  · intro t ht
    exact (hknows _).mpr (Or.inr ⟨t, ht, rfl⟩)

theorem adds_addFollow (hs : s.Proper g) {x : SymbolId} (hx : x < g.vocabulary.size)
    {ts : TerminalSet} (hts : ∀ t ∈ ts, g.IsLookahead t) :
    Adds g .follow s (s.addFollow x ts) := by
  have hknows := knows_setFollow_iff hs hx ts
  refine adds_of_union (.follow x) hs ?_ (fun _ => rfl) (fun _ => Iff.rfl) ?_
  · refine .of_knows_iff hs rfl rfl Array.size_setIfInBounds hknows ?_
    rintro f ⟨t, ht, rfl⟩
    exact ⟨rfl, hx, hts t ht⟩
  · intro t ht
    exact (hknows _).mpr (Or.inr ⟨t, ht, rfl⟩)

/-- What an addition that is no news would have added is known. -/
theorem isNullable_of_addNullable {x : SymbolId} (h : (s.addNullable x).2 = false) :
    s.isNullable x = true := by
  by_contra hx
  simp [addNullable, hx] at h

theorem mem_firstSet_of_addFirst {x t : SymbolId} {ts : TerminalSet}
    (h : (s.addFirst x ts).2 = false) (ht : t ∈ ts) : t ∈ s.firstSet x := by
  by_cases hgrown : s.firstSet x ∪ ts = s.firstSet x
  · rw [← hgrown]
    exact OrderedSet.mem_union.mpr (Or.inr ht)
  · simp [addFirst, hgrown] at h

theorem mem_followSet_of_addFollow {x t : SymbolId} {ts : TerminalSet}
    (h : (s.addFollow x ts).2 = false) (ht : t ∈ ts) : t ∈ s.followSet x := by
  by_cases hgrown : s.followSet x ∪ ts = s.followSet x
  · rw [← hgrown]
    exact OrderedSet.mem_union.mpr (Or.inr ht)
  · simp [addFollow, hgrown] at h

/-! ## What one rule adds -/

theorem Proper.of_mem_firstOf (hs : s.Proper g) {xs : List SymbolId} {t : SymbolId}
    (h : t ∈ s.firstOf xs) : g.IsLookahead t := by
  induction xs with
  | nil => exact absurd h (OrderedSet.not_mem_empty t)
  | cons x xs ih =>
      rw [firstOf] at h
      split at h
      · rcases OrderedSet.mem_union.mp h with h | h
        · exact (hs.facts (.first x t) h).2
        · exact ih h
      · exact (hs.facts (.first x t) h).2

theorem Proper.of_mem_behind (hs : s.Proper g) {head : SymbolId} {rest : List SymbolId}
    {t : SymbolId} (h : t ∈ s.behind head rest) : g.IsLookahead t := by
  rw [behind] at h
  split at h
  · rcases OrderedSet.mem_union.mp h with h | h
    · exact hs.of_mem_firstOf h
    · exact (hs.facts (.follow head t) h).2
  · exact hs.of_mem_firstOf h

theorem lt_size_head {r : Rule} (h : r ∈ g.rules) : r.head < g.vocabulary.size :=
  Grammar.lt_size_of_kind (g.rules_wellFormed.head r h)

theorem lt_size_of_mem_body {r : Rule} (h : r ∈ g.rules) {x : SymbolId} (hx : x ∈ r.body.toList) :
    x < g.vocabulary.size := by
  obtain ⟨_, hsymbol, -⟩ := g.rules_wellFormed.body r h x (Array.mem_toList_iff.mp hx)
  exact (Array.getElem?_eq_some_iff.mp hsymbol).1

theorem adds_nullableByRule (hs : s.Proper g) {r : Rule} (hr : r ∈ g.rules) :
    Adds g .nullable s (s.nullableByRule r) := by
  unfold nullableByRule
  split
  · exact adds_addNullable hs (lt_size_head hr)
  · exact .nothing hs

theorem adds_firstByRule (hs : s.Proper g) {r : Rule} (hr : r ∈ g.rules) :
    Adds g .first s (s.firstByRule r) :=
  adds_addFirst hs (lt_size_head hr) fun _ => hs.of_mem_firstOf

theorem adds_followByBody (hs : s.Proper g) (head : SymbolId) {body : List SymbolId}
    (hbody : ∀ x ∈ body, x < g.vocabulary.size) :
    Adds g .follow s (s.followByBody head body) := by
  induction body generalizing s with
  | nil => exact .nothing hs
  | cons x rest ih =>
      have hhere : Adds g .follow s (s.addFollow x (s.behind head rest)) :=
        adds_addFollow hs (hbody x List.mem_cons_self) fun _ => hs.of_mem_behind
      exact hhere.seq (ih hhere.extend.proper fun y hy => hbody y (List.mem_cons_of_mem _ hy))

theorem adds_followByRule (hs : s.Proper g) {r : Rule} (hr : r ∈ g.rules) :
    Adds g .follow s (s.followByRule r) :=
  adds_followByBody hs r.head fun _ => lt_size_of_mem_body hr

/-- A body without news has, behind each of its symbols, what may follow the symbol. -/
theorem mem_followSet_of_followByBody (hs : s.Proper g) {head : SymbolId} {body : List SymbolId}
    (hbody : ∀ x ∈ body, x < g.vocabulary.size) (h : (s.followByBody head body).2 = false)
    {front : List SymbolId} {x : SymbolId} {rest : List SymbolId} (hsplit : body = front ++ x :: rest)
    {t : SymbolId} (ht : t ∈ s.behind head rest) : t ∈ s.followSet x := by
  induction body generalizing front with
  | nil => simp at hsplit
  | cons y tail ih =>
      obtain ⟨hhere, hlater⟩ := Bool.or_eq_false_iff.mp
        (show ((s.addFollow y (s.behind head tail)).2 ||
          ((s.addFollow y (s.behind head tail)).1.followByBody head tail).2) = false from h)
      have hadds : Adds g .follow s (s.addFollow y (s.behind head tail)) :=
        adds_addFollow hs (hbody y List.mem_cons_self) fun _ => hs.of_mem_behind
      have hsame := hadds.quiet hhere
      rcases front with _ | ⟨z, front⟩
      · obtain ⟨rfl, rfl⟩ := List.cons.inj hsplit
        exact mem_followSet_of_addFollow hhere ht
      · rw [hsame] at hlater
        exact ih (fun z hz => hbody z (List.mem_cons_of_mem _ hz)) hlater
          (List.cons.inj hsplit).2

/-! ## Passes -/

theorem adds_overRules {k : Aspect} {byRule : FirstFollow → Rule → FirstFollow × Bool}
    (hrule : ∀ {s : FirstFollow}, s.Proper g → ∀ {r}, r ∈ g.rules → Adds g k s (byRule s r))
    (hs : s.Proper g) {rules : List Rule} (hrules : ∀ r ∈ rules, r ∈ g.rules) :
    Adds g k s (overRules byRule s rules) := by
  induction rules generalizing s with
  | nil => exact .nothing hs
  | cons r rest ih =>
      have hhere := hrule hs (hrules r List.mem_cons_self)
      exact hhere.seq (ih hhere.extend.proper fun q hq => hrules q (List.mem_cons_of_mem _ hq))

/-- Rules that have no news together have none by themselves. -/
theorem quiet_of_overRules {k : Aspect} {byRule : FirstFollow → Rule → FirstFollow × Bool}
    (hrule : ∀ {s : FirstFollow}, s.Proper g → ∀ {r}, r ∈ g.rules → Adds g k s (byRule s r))
    (hs : s.Proper g) {rules : List Rule} (hrules : ∀ r ∈ rules, r ∈ g.rules)
    (h : (overRules byRule s rules).2 = false) : ∀ r ∈ rules, (byRule s r).2 = false := by
  induction rules with
  | nil => nofun
  | cons r rest ih =>
      obtain ⟨hhere, hlater⟩ := Bool.or_eq_false_iff.mp
        (show ((byRule s r).2 || (overRules byRule (byRule s r).1 rest).2) = false from h)
      rw [(hrule hs (hrules r List.mem_cons_self)).quiet hhere] at hlater
      intro q hq
      rcases List.mem_cons.mp hq with rfl | hq
      · exact hhere
      · exact ih (fun q hq => hrules q (List.mem_cons_of_mem _ hq)) hlater q hq

theorem adds_updateNullable (hs : s.Proper g) : Adds g .nullable s (s.updateNullable g) :=
  adds_overRules adds_nullableByRule hs fun _ => Array.mem_toList_iff.mp

theorem adds_updateFirst (hs : s.Proper g) : Adds g .first s (s.updateFirst g) :=
  adds_overRules adds_firstByRule hs fun _ => Array.mem_toList_iff.mp

theorem adds_updateFollow (hs : s.Proper g) : Adds g .follow s (s.updateFollow g) :=
  adds_overRules adds_followByRule hs fun _ => Array.mem_toList_iff.mp

/-! A pass without news leaves nothing to find by any of the rules. -/

section

variable {r : Rule}

theorem isNullable_head_of_quiet (hs : s.Proper g) (h : (s.updateNullable g).2 = false)
    (hr : r ∈ g.rules) (hbody : s.nullableSeq r.body.toList = true) :
    s.isNullable r.head = true := by
  have hquiet := quiet_of_overRules adds_nullableByRule hs (fun _ => Array.mem_toList_iff.mp) h r
    (Array.mem_toList_iff.mpr hr)
  rw [nullableByRule, if_pos hbody] at hquiet
  exact isNullable_of_addNullable hquiet

theorem mem_firstSet_head_of_quiet (hs : s.Proper g) (h : (s.updateFirst g).2 = false)
    (hr : r ∈ g.rules) {t : SymbolId} (ht : t ∈ s.firstOf r.body.toList) :
    t ∈ s.firstSet r.head :=
  mem_firstSet_of_addFirst (quiet_of_overRules adds_firstByRule hs
    (fun _ => Array.mem_toList_iff.mp) h r (Array.mem_toList_iff.mpr hr)) ht

theorem mem_followSet_of_quiet (hs : s.Proper g) (h : (s.updateFollow g).2 = false)
    (hr : r ∈ g.rules) {front rest : List SymbolId} {x : SymbolId}
    (hsplit : r.body.toList = front ++ x :: rest) {t : SymbolId}
    (ht : t ∈ s.behind r.head rest) : t ∈ s.followSet x :=
  mem_followSet_of_followByBody hs (fun _ => lt_size_of_mem_body hr)
    (quiet_of_overRules adds_followByRule hs (fun _ => Array.mem_toList_iff.mp) h r
      (Array.mem_toList_iff.mpr hr)) hsplit ht

end

/-! ## Repeated passes end -/

/-- All facts of an aspect over declared symbols. -/
def pool (g : Grammar) : Aspect → Finset Fact
  | .nullable => (Finset.range g.vocabulary.size).image .nullable
  | .first =>
    (Finset.range g.vocabulary.size ×ˢ Finset.range g.vocabulary.size).image fun p =>
      .first p.1 p.2
  | .follow =>
    (Finset.range g.vocabulary.size ×ˢ Finset.range g.vocabulary.size).image fun p =>
      .follow p.1 p.2

theorem mem_pool {f : Fact} (h : f.Proper g) : f ∈ pool g f.aspect := by
  cases f with
  | nullable x => exact Finset.mem_image_of_mem _ (Finset.mem_range.mpr h)
  | first x t =>
      exact Finset.mem_image.mpr ⟨(x, t), Finset.mem_product.mpr
        ⟨Finset.mem_range.mpr h.1, Finset.mem_range.mpr h.2.lt_size⟩, rfl⟩
  | follow x t =>
      exact Finset.mem_image.mpr ⟨(x, t), Finset.mem_product.mpr
        ⟨Finset.mem_range.mpr h.1, Finset.mem_range.mpr h.2.lt_size⟩, rfl⟩

theorem card_pool_lt (g : Grammar) (k : Aspect) : (pool g k).card < maxPasses g := by
  have hcard : (Finset.range g.vocabulary.size ×ˢ Finset.range g.vocabulary.size).card =
      g.vocabulary.size * g.vocabulary.size := by
    rw [Finset.card_product, Finset.card_range]
  rw [maxPasses, Nat.lt_succ_iff]
  cases k with
  | nullable =>
      refine Finset.card_image_le.trans ?_
      rw [Finset.card_range]
      exact Nat.le_mul_self _
  | first => exact Finset.card_image_le.trans hcard.le
  | follow => exact Finset.card_image_le.trans hcard.le

/-- The facts of an aspect that are not known yet. -/
def unknown (g : Grammar) (k : Aspect) (s : FirstFollow) : Finset Fact :=
  (pool g k).filter fun f => ¬ s.Knows f

theorem Adds.card_unknown_lt {k : Aspect} {a : FirstFollow × Bool} (h : Adds g k s a)
    (hnews : a.2 = true) : (unknown g k a.1).card < (unknown g k s).card := by
  obtain ⟨f, rfl, hf, hnew⟩ := h.news hnews
  refine Finset.card_lt_card (Finset.ssubset_iff_subset_ne.mpr ⟨?_, ?_⟩)
  · intro f' hf'
    obtain ⟨hmem, hunknown⟩ := Finset.mem_filter.mp hf'
    exact Finset.mem_filter.mpr ⟨hmem, fun hk => hunknown (h.extend.kept f' hk)⟩
  · intro heq
    have hmem : f ∈ unknown g f.aspect s :=
      Finset.mem_filter.mpr ⟨mem_pool (h.extend.proper.facts f hf), hnew⟩
    rw [← heq] at hmem
    exact (Finset.mem_filter.mp hmem).2 hf

/-- The loop that takes a pass for as long as it has news ends, and with what. -/
inductive Settles (pass : FirstFollow → FirstFollow × Bool) : FirstFollow → FirstFollow → Prop
  | quiet {old new : FirstFollow} (last : pass old = (new, false)) : Settles pass old new
  | news {old mid new : FirstFollow} (next : pass old = (mid, true))
      (rest : Settles pass mid new) : Settles pass old new

/-- A phase of the computation: passes that are after one aspect, until they have no news. -/
structure Phase (g : Grammar) (k : Aspect) (pass : FirstFollow → FirstFollow × Bool)
    (s s' : FirstFollow) : Prop where
  extend : Extends g k s s'
  settles : Settles pass s s'
  quiet : (pass s').2 = false

/-- **Repeated passes end.** With more fuel than there are unknown facts, the last pass has no
news. -/
theorem repeatPass_ends {k : Aspect} {pass : FirstFollow → FirstFollow × Bool}
    (hpass : ∀ {s : FirstFollow}, s.Proper g → Adds g k s (pass s)) {fuel : Nat}
    (hs : s.Proper g) (hfuel : (unknown g k s).card < fuel) :
    Phase g k pass s (repeatPass pass fuel s) := by
  induction fuel generalizing s with
  | zero => exact absurd hfuel (Nat.not_lt_zero _)
  | succ fuel ih =>
      have hadds := hpass hs
      rw [repeatPass]
      rcases hanswer : pass s with ⟨s', _ | _⟩
      · rw [hanswer] at hadds
        -- a pass without news has changed nothing, so it is also the last
        obtain rfl : s' = s := hadds.quiet rfl
        exact ⟨.refl hs, .quiet hanswer, by rw [hanswer]⟩
      · rw [hanswer] at hadds
        obtain ⟨hextend, hsettles, hquiet⟩ := ih hadds.extend.proper
          (lt_of_lt_of_le (hadds.card_unknown_lt rfl) (Nat.lt_succ_iff.mp hfuel))
        exact ⟨hadds.extend.trans hextend, .news hanswer hsettles, hquiet⟩

/-! ## The finished sets -/

/-- The sets obey the rules by which they are found. -/
structure Closed (g : Grammar) (s : FirstFollow) : Prop where
  nullable : ∀ r ∈ g.rules, s.nullableSeq r.body.toList = true → s.isNullable r.head = true
  terminal : ∀ x, g.IsTerminal x → x ∈ s.firstSet x
  first : ∀ r ∈ g.rules, ∀ t ∈ s.firstOf r.body.toList, t ∈ s.firstSet r.head
  finish : g.endOfInput ∈ s.followSet g.start
  follow : ∀ r ∈ g.rules, ∀ front x rest, r.body.toList = front ++ x :: rest →
    ∀ t ∈ s.behind r.head rest, t ∈ s.followSet x

theorem firstSet_seed (g : Grammar) (x t : SymbolId) :
    t ∈ (seed g).firstSet x ↔ t = x ∧ g.IsLookahead x := by
  have hget : (seed g).firstSet x = ((g.symbol? x).map fun s =>
      if s.isTerminal then OrderedSet.singleton x else (∅ : TerminalSet)).getD ∅ := by
    simp only [firstSet, seed, Array.getElem?_mapIdx]
    rfl
  rw [hget, Grammar.IsLookahead, Grammar.eq_endOfInput_iff_kind, Grammar.IsTerminal]
  rcases g.symbol? x with _ | ⟨kind, name⟩
  · simpa using OrderedSet.not_mem_empty t
  · cases kind with
    | terminal => simp [Symbol.isTerminal, OrderedSet.mem_singleton]
    | nonterminal => simpa [Symbol.isTerminal] using OrderedSet.not_mem_empty t
    | endOfInput => simp [Symbol.isTerminal, OrderedSet.mem_singleton]

theorem followSet_seed (g : Grammar) (x t : SymbolId) :
    t ∈ (seed g).followSet x ↔ x = g.start ∧ t = g.endOfInput := by
  have hstart : g.start < g.vocabulary.size :=
    Grammar.lt_size_of_kind (Grammar.isNonterminal_iff_kind.mp g.start_nonterminal)
  simp only [followSet, seed, Array.getElem?_setIfInBounds, Array.size_replicate, hstart,
    Array.getElem?_replicate]
  by_cases hx : x = g.start
  · simp [hx, OrderedSet.mem_singleton]
  · rw [if_neg (Ne.symm hx)]
    split
    · simpa [hx] using OrderedSet.not_mem_empty t
    · simpa [hx] using OrderedSet.not_mem_empty t

theorem proper_seed (g : Grammar) : (seed g).Proper g where
  nullable_size := Array.size_replicate
  first_size := Array.size_mapIdx
  follow_size := by simp [seed]
  facts := by
    rintro (x | ⟨x, t⟩ | ⟨x, t⟩) h
    · rw [Knows, isNullable, seed, Array.getElem?_replicate] at h
      split at h
      · cases h
      · cases h
    · obtain ⟨rfl, ht⟩ := (firstSet_seed g x t).mp h
      exact ⟨ht.lt_size, ht⟩
    · obtain ⟨rfl, rfl⟩ := (followSet_seed g x t).mp h
      exact ⟨Grammar.lt_size_of_kind (Grammar.isNonterminal_iff_kind.mp g.start_nonterminal),
        Or.inr rfl⟩

/-! What a later phase leaves alone can be asked of the sets before or after it. -/

theorem Extends.isNullable_eq {k : Aspect} (h : Extends g k s s') (hk : Aspect.nullable ≠ k)
    (x : SymbolId) : s'.isNullable x = s.isNullable x :=
  Bool.eq_iff_iff.mpr (h.frame (.nullable x) hk)

theorem Extends.nullableSeq_eq {k : Aspect} (h : Extends g k s s') (hk : Aspect.nullable ≠ k)
    (xs : List SymbolId) : s'.nullableSeq xs = s.nullableSeq xs := by
  rw [nullableSeq, nullableSeq, funext (h.isNullable_eq hk)]

theorem Extends.firstSet_eq {k : Aspect} (h : Extends g k s s') (hk : Aspect.first ≠ k)
    (x : SymbolId) : s'.firstSet x = s.firstSet x :=
  OrderedSet.ext fun t => h.frame (.first x t) hk

theorem Extends.firstOf_eq (h : Extends g .follow s s') (xs : List SymbolId) :
    s'.firstOf xs = s.firstOf xs := by
  induction xs with
  | nil => rfl
  | cons x xs ih => rw [firstOf, firstOf, ih, h.isNullable_eq nofun, h.firstSet_eq nofun]

/-- The sets are computed in three phases. -/
theorem compute_phases (g : Grammar) :
    ∃ s₁ s₂, Phase g .nullable (updateNullable g) (seed g) s₁ ∧
      Phase g .first (updateFirst g) s₁ s₂ ∧ Phase g .follow (updateFollow g) s₂ (compute g) := by
  have hpool : ∀ k s, (unknown g k s).card < maxPasses g := fun k s =>
    lt_of_le_of_lt (Finset.card_filter_le _ _) (card_pool_lt g k)
  have h₁ := repeatPass_ends adds_updateNullable (proper_seed g) (hpool _ _)
  have h₂ := repeatPass_ends adds_updateFirst h₁.extend.proper (hpool _ _)
  have h₃ := repeatPass_ends adds_updateFollow h₂.extend.proper (hpool _ _)
  exact ⟨_, _, h₁, h₂, h₃⟩

/-- What the computation begins with stays known. -/
theorem knows_compute_of_seed {f : Fact} (h : (seed g).Knows f) : (compute g).Knows f := by
  obtain ⟨s₁, s₂, h₁, h₂, h₃⟩ := compute_phases g
  exact h₃.extend.kept f (h₂.extend.kept f (h₁.extend.kept f h))

theorem compute_proper_closed (g : Grammar) :
    (compute g).Proper g ∧ Closed g (compute g) := by
  obtain ⟨s₁, s₂, ⟨h₁, -, hquiet₁⟩, ⟨h₂, -, hquiet₂⟩, ⟨h₃, -, hquiet₃⟩⟩ := compute_phases g
  refine ⟨h₃.proper, ?_⟩
  -- each phase was quiet in the end, and the phases after it leave its aspect alone
  constructor
  · intro r hr hbody
    rw [h₃.nullableSeq_eq nofun, h₂.nullableSeq_eq nofun] at hbody
    rw [h₃.isNullable_eq nofun, h₂.isNullable_eq nofun]
    exact isNullable_head_of_quiet h₁.proper hquiet₁ hr hbody
  · intro x hx
    exact knows_compute_of_seed (f := .first x x) ((firstSet_seed g x x).mpr ⟨rfl, Or.inl hx⟩)
  · intro r hr t ht
    rw [h₃.firstOf_eq] at ht
    rw [h₃.firstSet_eq nofun]
    exact mem_firstSet_head_of_quiet h₂.proper hquiet₂ hr ht
  · exact knows_compute_of_seed (f := .follow _ _)
      ((followSet_seed g g.start g.endOfInput).mpr ⟨rfl, rfl⟩)
  · intro r hr front x rest hsplit t ht
    exact mem_followSet_of_quiet h₃.proper hquiet₃ hr hsplit ht

/-! ## What trees begin with -/

/-- What closed sets know of a tree: that it vanishes, or what it begins with. -/
structure Sees (s : FirstFollow) (t : Tree SymbolId RuleId) : Prop where
  vanishes : t.leaves = [] → s.isNullable t.symbol = true
  begins : ∀ l ∈ t.leaves.head?, l.symbol ∈ s.firstSet t.symbol

theorem nullableSeq_of_sees {ts : List (Tree SymbolId RuleId)} (h : ∀ t ∈ ts, s.Sees t)
    (hnil : Tree.leavesAll ts = []) : s.nullableSeq (ts.map Tree.symbol) = true := by
  rw [nullableSeq, List.all_map, List.all_eq_true]
  intro t ht
  refine (h t ht).vanishes (List.eq_nil_iff_forall_not_mem.mpr fun l hl => ?_)
  have := Tree.mem_leavesAll.mpr ⟨t, ht, hl⟩
  rw [hnil] at this
  cases this

theorem mem_firstOf_of_sees {ts : List (Tree SymbolId RuleId)} (h : ∀ t ∈ ts, s.Sees t)
    {l : Token SymbolId} (hl : l ∈ (Tree.leavesAll ts).head?) :
    l.symbol ∈ s.firstOf (ts.map Tree.symbol) := by
  induction ts with
  | nil => simp [Tree.leavesAll] at hl
  | cons t ts ih =>
      have hhere := h t List.mem_cons_self
      rw [List.map_cons, firstOf]
      rcases hleaves : t.leaves with _ | ⟨l', rest⟩
      · rw [Tree.leavesAll, hleaves, List.nil_append] at hl
        rw [if_pos (hhere.vanishes hleaves)]
        exact OrderedSet.mem_union.mpr (Or.inr
          (ih (fun u hu => h u (List.mem_cons_of_mem _ hu)) hl))
      · rw [Tree.leavesAll, hleaves] at hl
        have hbegins := hhere.begins l (by rw [hleaves]; exact hl)
        split
        · exact OrderedSet.mem_union.mpr (Or.inl hbegins)
        · exact hbegins

/-- Closed sets know of every tree. -/
theorem Closed.sees (hs : Closed g s) {t : Tree SymbolId RuleId} (ht : t.Grows g) :
    s.Sees t := by
  induction ht using Tree.Grows.induction with
  | leaf t hterminal =>
      refine ⟨by simp [Tree.leaves], fun l hl => ?_⟩
      obtain rfl : t = l := by simpa [Tree.leaves] using hl
      exact hs.terminal _ hterminal
  | node k q ts hq hbody children ih =>
      have hmem := Array.mem_of_getElem? hq
      constructor
      · intro hnil
        rw [Tree.leaves] at hnil
        exact hs.nullable q hmem (hbody ▸ nullableSeq_of_sees ih hnil)
      · intro l hl
        rw [Tree.leaves] at hl
        exact hs.first q hmem _ (hbody ▸ mem_firstOf_of_sees ih hl)

/-- **Follow sets know what comes next.** What is ahead of the trees behind a symbol of a body can
follow the symbol, if what is ahead of the whole body can follow the head. -/
theorem Closed.ahead_mem_followSet (hs : Closed g s) {r : Rule} (hr : r ∈ g.rules)
    {front : List SymbolId} {x : SymbolId} {ts : List (Tree SymbolId RuleId)}
    (hsplit : r.body.toList = front ++ x :: ts.map Tree.symbol) (hts : ∀ t ∈ ts, t.Grows g)
    {w : List (Token SymbolId)} (hw : g.ahead w ∈ s.followSet r.head) :
    g.ahead (Tree.leavesAll ts ++ w) ∈ s.followSet x := by
  have hsees : ∀ t ∈ ts, s.Sees t := fun t ht => hs.sees (hts t ht)
  refine hs.follow r hr front x _ hsplit _ ?_
  rw [behind]
  rcases hleaves : Tree.leavesAll ts with _ | ⟨l, rest⟩
  · rw [if_pos (nullableSeq_of_sees hsees hleaves), List.nil_append]
    exact OrderedSet.mem_union.mpr (Or.inr hw)
  · have hbegins : l.symbol ∈ s.firstOf (ts.map Tree.symbol) :=
      mem_firstOf_of_sees hsees (by rw [hleaves]; rfl)
    split
    · exact OrderedSet.mem_union.mpr (Or.inl hbegins)
    · exact hbegins

end FirstFollow

end ShiftReduce
