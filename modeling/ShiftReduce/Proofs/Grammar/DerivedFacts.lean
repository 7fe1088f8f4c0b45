import ShiftReduce.Proofs.Grammar.FirstFollow

/-!
# What is known is what is derived

Each fact about a symbol says something of the derivations of the grammar (`FirstFollow.Fact.Holds`).
No pass finds a fact that does not hold (`Sound`), wherever it starts from and whatever it has found in
the same pass before. And sets that are closed miss none: what they know of a sequence, they knew of
all that it was derived from. So the computed sets know a fact exactly when it holds
(`compute_settles_exact`).

That one symbol stands before another in something derived is seen on the way from the root. At each
rewriting, what stands behind a symbol was behind it, or behind the head of the rule, or is behind it
in the body (`Closed.tracks_of_rewrites`).
-/

namespace ShiftReduce

variable {g : Grammar} {s s' : FirstFollow}

namespace Grammar

/-- No derivation brings in the end marker. -/
theorem Rewrites.endOfInput_not_mem {u v : List SymbolId} (h : g.Rewrites u v)
    (hu : g.endOfInput ∉ u) : g.endOfInput ∉ v := by
  obtain ⟨a, b, hr⟩ := h
  intro hv
  rcases List.mem_append.mp hv with hv | hv
  · rcases List.mem_append.mp hv with hv | hv
    · exact hu (List.mem_append_left _ hv)
    · exact ne_endOfInput_of_mem_body hr (Array.mem_toList_iff.mp hv) rfl
  · exact hu (List.mem_append_right _ (List.mem_cons_of_mem _ hv))

theorem DerivesTo.endOfInput_not_mem {u v : List SymbolId} (h : g.DerivesTo u v)
    (hu : g.endOfInput ∉ u) : g.endOfInput ∉ v := by
  induction h with
  | refl => exact hu
  | tail _ hstep ih => exact hstep.endOfInput_not_mem ih

end Grammar

namespace FirstFollow

/-! ## Sequences -/

theorem nullableSeq_cons {x : SymbolId} {w : List SymbolId} :
    s.nullableSeq (x :: w) = true ↔ s.isNullable x = true ∧ s.nullableSeq w = true := by
  rw [nullableSeq, List.all_cons, Bool.and_eq_true]
  rfl

theorem nullableSeq_append {u v : List SymbolId} :
    s.nullableSeq (u ++ v) = true ↔ s.nullableSeq u = true ∧ s.nullableSeq v = true := by
  rw [nullableSeq, List.all_append, Bool.and_eq_true]
  rfl

theorem mem_firstOf_cons {x t : SymbolId} {w : List SymbolId} :
    t ∈ s.firstOf (x :: w) ↔
      t ∈ s.firstSet x ∨ s.isNullable x = true ∧ t ∈ s.firstOf w := by
  rw [firstOf]
  split
  · next hx => rw [OrderedSet.mem_union, and_iff_right hx]
  · next hx => exact (or_iff_left fun h => hx h.1).symm

theorem mem_firstOf_append {u v : List SymbolId} {t : SymbolId} :
    t ∈ s.firstOf (u ++ v) ↔
      t ∈ s.firstOf u ∨ s.nullableSeq u = true ∧ t ∈ s.firstOf v := by
  induction u with
  | nil =>
      have hnil : t ∉ s.firstOf [] := OrderedSet.not_mem_empty t
      rw [List.nil_append, or_iff_right hnil, and_iff_right (show s.nullableSeq [] = true from rfl)]
  | cons x u ih =>
      rw [List.cons_append, mem_firstOf_cons, mem_firstOf_cons, ih, nullableSeq_cons]
      constructor
      · rintro (h | ⟨hx, h | ⟨hu, h⟩⟩)
        · exact Or.inl (Or.inl h)
        · exact Or.inl (Or.inr ⟨hx, h⟩)
        · exact Or.inr ⟨⟨hx, hu⟩, h⟩
      · rintro ((h | ⟨hx, h⟩) | ⟨⟨hx, hu⟩, h⟩)
        · exact Or.inl h
        · exact Or.inr ⟨hx, Or.inl h⟩
        · exact Or.inr ⟨hx, Or.inr ⟨hu, h⟩⟩

theorem mem_behind {head t : SymbolId} {rest : List SymbolId} :
    t ∈ s.behind head rest ↔
      t ∈ s.firstOf rest ∨ s.nullableSeq rest = true ∧ t ∈ s.followSet head := by
  rw [behind]
  split
  · next hrest => rw [OrderedSet.mem_union, and_iff_right hrest]
  · next hrest => exact (or_iff_left fun h => hrest h.1).symm

/-! ## Facts that hold -/

/-- What a fact says of derivations. A terminal may follow a symbol in something that any nonterminal
derives, but the end follows it only where the start symbol is derived from. -/
def Fact.Holds (g : Grammar) : Fact → Prop
  | .nullable x => g.DerivesTo [x] []
  | .first x t => g.IsLookahead t ∧ ∃ b, g.DerivesTo [x] (t :: b)
  | .follow x t =>
    (g.IsTerminal t ∧ ∃ n, g.isNonterminal n = true ∧
      ∃ a b, g.DerivesTo [n] (a ++ x :: t :: b)) ∨
    t = g.endOfInput ∧ ∃ a, g.DerivesTo [g.start] (a ++ [x])

/-- All that is known holds. -/
structure Sound (g : Grammar) (s : FirstFollow) : Prop where
  proper : s.Proper g
  holds : ∀ f, s.Knows f → f.Holds g

namespace Sound

theorem derivesTo_nil (hs : Sound g s) {w : List SymbolId} (h : s.nullableSeq w = true) :
    g.DerivesTo w [] := by
  induction w with
  | nil => exact .refl _
  | cons x w ih =>
      obtain ⟨hx, hw⟩ := nullableSeq_cons.mp h
      have hhead : g.DerivesTo [x] [] := hs.holds (.nullable x) hx
      exact hhead.append (ih hw)

theorem derivesTo_of_mem_firstOf (hs : Sound g s) {w : List SymbolId} {t : SymbolId}
    (h : t ∈ s.firstOf w) : ∃ b, g.DerivesTo w (t :: b) := by
  induction w with
  | nil => exact absurd h (OrderedSet.not_mem_empty t)
  | cons x w ih =>
      rcases mem_firstOf_cons.mp h with h | ⟨hx, h⟩
      · obtain ⟨-, b, hb⟩ := hs.holds (.first x t) h
        exact ⟨b ++ w, hb.append (.refl w)⟩
      · obtain ⟨b, hb⟩ := ih h
        have hhead : g.DerivesTo [x] [] := hs.holds (.nullable x) hx
        exact ⟨b, hhead.append hb⟩

/-- What the sets put behind a symbol of a body can follow the symbol. -/
theorem holds_follow (hs : Sound g s) {r : Rule} (hr : r ∈ g.rules) {front rest : List SymbolId}
    {x t : SymbolId} (hsplit : r.body.toList = front ++ x :: rest)
    (ht : t ∈ s.behind r.head rest) : (Fact.follow x t).Holds g := by
  have hrule := Grammar.DerivesTo.of_rule hr
  rw [hsplit] at hrule
  rcases mem_behind.mp ht with ht | ⟨hrest, ht⟩
  · obtain ⟨b, hb⟩ := hs.derivesTo_of_mem_firstOf ht
    have hinner : g.endOfInput ∉ rest := by
      intro hmem
      refine Grammar.ne_endOfInput_of_mem_body hr (Array.mem_toList_iff.mp ?_) rfl
      rw [hsplit]
      exact List.mem_append_right _ (List.mem_cons_of_mem _ hmem)
    have hterminal : g.IsTerminal t := by
      rcases hs.proper.of_mem_firstOf ht with ht | rfl
      · exact ht
      · exact absurd List.mem_cons_self (hb.endOfInput_not_mem hinner)
    refine Or.inl ⟨hterminal, r.head, Grammar.isNonterminal_head hr, front, b, hrule.trans ?_⟩
    have := hb.between (front ++ [x]) []
    simpa only [List.append_nil, List.append_assoc, List.singleton_append] using this
  · have hvanish := hs.derivesTo_nil hrest
    -- the head with its body in place, and the symbols behind `x` gone
    have hbody : ∀ c d, g.DerivesTo (c ++ r.head :: d) (c ++ front ++ x :: d) := by
      intro c d
      have hfirst := hrule.between c d
      have hlast := hvanish.between (c ++ front ++ [x]) d
      simp only [List.append_assoc, List.cons_append, List.nil_append] at hfirst hlast ⊢
      exact hfirst.trans hlast
    rcases hs.holds (.follow r.head t) ht with ⟨hterminal, n, hn, a, b, hab⟩ | ⟨rfl, a, ha⟩
    · exact Or.inl ⟨hterminal, n, hn, a ++ front, b, hab.trans (hbody a (t :: b))⟩
    · exact Or.inr ⟨rfl, a ++ front, ha.trans (hbody a [])⟩

/-! ### What one rule adds -/

theorem addNullable (hs : Sound g s) {x : SymbolId} (hx : x < g.vocabulary.size)
    (hnew : (Fact.nullable x).Holds g) : Sound g (s.addNullable x).1 := by
  refine ⟨(adds_addNullable hs.proper hx).extend.proper, fun f hf => ?_⟩
  unfold FirstFollow.addNullable at hf
  split at hf
  · exact hs.holds f hf
  · rcases (knows_setNullable_iff hs.proper hx f).mp hf with hf | rfl
    · exact hs.holds f hf
    · exact hnew

theorem addFirst (hs : Sound g s) {x : SymbolId} (hx : x < g.vocabulary.size) {ts : TerminalSet}
    (hnew : ∀ t ∈ ts, (Fact.first x t).Holds g) : Sound g (s.addFirst x ts).1 := by
  have hlookahead : ∀ t ∈ ts, g.IsLookahead t := fun t ht => (hnew t ht).1
  refine ⟨(adds_addFirst hs.proper hx hlookahead).extend.proper, fun f hf => ?_⟩
  unfold FirstFollow.addFirst at hf
  dsimp only at hf
  split at hf
  · exact hs.holds f hf
  · rcases (knows_setFirst_iff hs.proper hx ts f).mp hf with hf | ⟨t, ht, rfl⟩
    · exact hs.holds f hf
    · exact hnew t ht

theorem addFollow (hs : Sound g s) {x : SymbolId} (hx : x < g.vocabulary.size) {ts : TerminalSet}
    (hnew : ∀ t ∈ ts, (Fact.follow x t).Holds g) : Sound g (s.addFollow x ts).1 := by
  have hlookahead : ∀ t ∈ ts, g.IsLookahead t := fun t ht =>
    (hnew t ht).imp (fun h => h.1) fun h => h.1
  refine ⟨(adds_addFollow hs.proper hx hlookahead).extend.proper, fun f hf => ?_⟩
  unfold FirstFollow.addFollow at hf
  dsimp only at hf
  split at hf
  · exact hs.holds f hf
  · rcases (knows_setFollow_iff hs.proper hx ts f).mp hf with hf | ⟨t, ht, rfl⟩
    · exact hs.holds f hf
    · exact hnew t ht

theorem nullableByRule (hs : Sound g s) {r : Rule} (hr : r ∈ g.rules) :
    Sound g (s.nullableByRule r).1 := by
  unfold FirstFollow.nullableByRule
  split
  · next hbody =>
    exact hs.addNullable (lt_size_head hr) ((Grammar.DerivesTo.of_rule hr).trans
      (hs.derivesTo_nil hbody))
  · exact hs

theorem firstByRule (hs : Sound g s) {r : Rule} (hr : r ∈ g.rules) :
    Sound g (s.firstByRule r).1 := by
  refine hs.addFirst (lt_size_head hr) fun t ht => ?_
  obtain ⟨b, hb⟩ := hs.derivesTo_of_mem_firstOf ht
  exact ⟨hs.proper.of_mem_firstOf ht, b, (Grammar.DerivesTo.of_rule hr).trans hb⟩

theorem followByBody (hs : Sound g s) {r : Rule} (hr : r ∈ g.rules) (front : List SymbolId)
    {body : List SymbolId} (hsplit : r.body.toList = front ++ body) :
    Sound g (s.followByBody r.head body).1 := by
  induction body generalizing s front with
  | nil => exact hs
  | cons x rest ih =>
      have hx : x < g.vocabulary.size := lt_size_of_mem_body hr (by rw [hsplit]; simp)
      have hhere : Sound g (s.addFollow x (s.behind r.head rest)).1 :=
        hs.addFollow hx fun t ht => hs.holds_follow hr hsplit ht
      exact ih hhere (front ++ [x]) (by rw [hsplit, List.append_assoc]; rfl)

theorem followByRule (hs : Sound g s) {r : Rule} (hr : r ∈ g.rules) :
    Sound g (s.followByRule r).1 :=
  hs.followByBody hr [] rfl

/-! ### What passes add -/

theorem overRules {byRule : FirstFollow → Rule → FirstFollow × Bool}
    (hrule : ∀ {s : FirstFollow}, Sound g s → ∀ {r}, r ∈ g.rules → Sound g (byRule s r).1)
    (hs : Sound g s) {rules : List Rule} (hrules : ∀ r ∈ rules, r ∈ g.rules) :
    Sound g (overRules byRule s rules).1 := by
  induction rules generalizing s with
  | nil => exact hs
  | cons r rest ih =>
      have hhere := hrule hs (hrules r List.mem_cons_self)
      exact ih hhere fun q hq => hrules q (List.mem_cons_of_mem _ hq)

theorem updateNullable (hs : Sound g s) : Sound g (s.updateNullable g).1 :=
  hs.overRules nullableByRule fun _ => Array.mem_toList_iff.mp

theorem updateFirst (hs : Sound g s) : Sound g (s.updateFirst g).1 :=
  hs.overRules firstByRule fun _ => Array.mem_toList_iff.mp

theorem updateFollow (hs : Sound g s) : Sound g (s.updateFollow g).1 :=
  hs.overRules followByRule fun _ => Array.mem_toList_iff.mp

theorem of_settles {pass : FirstFollow → FirstFollow × Bool}
    (hpass : ∀ {s : FirstFollow}, Sound g s → Sound g (pass s).1) (h : Settles pass s s')
    (hs : Sound g s) : Sound g s' := by
  induction h with
  | @quiet old new last =>
      have := hpass hs
      rwa [last] at this
  | @news old mid new next rest ih =>
      have := hpass hs
      rw [next] at this
      exact ih this

end Sound

theorem sound_seed (g : Grammar) : Sound g (seed g) := by
  refine ⟨proper_seed g, ?_⟩
  rintro (x | ⟨x, t⟩ | ⟨x, t⟩) h
  · -- nothing vanishes yet
    rw [Knows, isNullable, seed, Array.getElem?_replicate] at h
    split at h
    · cases h
    · cases h
  · obtain ⟨rfl, ht⟩ := (firstSet_seed g x t).mp h
    exact ⟨ht, [], .refl _⟩
  · obtain ⟨rfl, rfl⟩ := (followSet_seed g x t).mp h
    exact Or.inr ⟨rfl, [], .refl _⟩

theorem sound_compute (g : Grammar) : Sound g (compute g) := by
  obtain ⟨s₁, s₂, h₁, h₂, h₃⟩ := compute_phases g
  have hs₁ := (sound_seed g).of_settles Sound.updateNullable h₁.settles
  have hs₂ := hs₁.of_settles Sound.updateFirst h₂.settles
  exact hs₂.of_settles Sound.updateFollow h₃.settles

/-! ## Nothing is missed -/

namespace Closed

variable {u v : List SymbolId}

theorem nullableSeq_of_rewrites (hs : Closed g s) (h : g.Rewrites u v)
    (hv : s.nullableSeq v = true) : s.nullableSeq u = true := by
  obtain ⟨a, b, hr⟩ := h
  obtain ⟨hab, hb⟩ := nullableSeq_append.mp hv
  obtain ⟨ha, hbody⟩ := nullableSeq_append.mp hab
  exact nullableSeq_append.mpr ⟨ha, nullableSeq_cons.mpr ⟨hs.nullable _ hr hbody, hb⟩⟩

theorem mem_firstOf_of_rewrites (hs : Closed g s) (h : g.Rewrites u v) {t : SymbolId}
    (ht : t ∈ s.firstOf v) : t ∈ s.firstOf u := by
  obtain ⟨a, b, hr⟩ := h
  rw [List.append_assoc, mem_firstOf_append, mem_firstOf_append] at ht
  rw [mem_firstOf_append, mem_firstOf_cons]
  rcases ht with ht | ⟨ha, ht | ⟨hbody, ht⟩⟩
  · exact Or.inl ht
  · exact Or.inr ⟨ha, Or.inl (hs.first _ hr t ht)⟩
  · exact Or.inr ⟨ha, Or.inr ⟨hs.nullable _ hr hbody, ht⟩⟩

theorem nullableSeq_of_derivesTo (hs : Closed g s) (h : g.DerivesTo u v)
    (hv : s.nullableSeq v = true) : s.nullableSeq u = true := by
  induction h with
  | refl => exact hv
  | tail _ hstep ih => exact ih (hs.nullableSeq_of_rewrites hstep hv)

theorem mem_firstOf_of_derivesTo (hs : Closed g s) (h : g.DerivesTo u v) {t : SymbolId}
    (ht : t ∈ s.firstOf v) : t ∈ s.firstOf u := by
  induction h with
  | refl => exact ht
  | tail _ hstep ih => exact ih (hs.mem_firstOf_of_rewrites hstep ht)

end Closed

/-- The sets know what stands behind each symbol of a sequence that is derived from a root. -/
def Tracks (s : FirstFollow) (root : SymbolId) (w : List SymbolId) : Prop :=
  ∀ front x rest, w = front ++ x :: rest → ∀ t ∈ s.behind root rest, t ∈ s.followSet x

theorem tracks_root (s : FirstFollow) (root : SymbolId) : s.Tracks root [root] := by
  intro front x rest hsplit t ht
  rcases front with _ | ⟨y, front⟩
  · obtain ⟨rfl, rfl⟩ := List.cons.inj hsplit
    rcases mem_behind.mp ht with ht | ⟨-, ht⟩
    · exact absurd ht (OrderedSet.not_mem_empty t)
    · exact ht
  · simp at hsplit

/-- What stands behind a body stands behind its head. -/
theorem mem_behind_cons_of_mem_behind_append (hs : Closed g s) {r : Rule} (hr : r ∈ g.rules)
    {root t : SymbolId} {a b : List SymbolId} (h : t ∈ s.behind root (a ++ r.body.toList ++ b)) :
    t ∈ s.behind root (a ++ r.head :: b) := by
  have hstep := Grammar.Rewrites.rule a b hr
  rcases mem_behind.mp h with h | ⟨hnull, h⟩
  · exact mem_behind.mpr (Or.inl (hs.mem_firstOf_of_rewrites hstep h))
  · exact mem_behind.mpr (Or.inr ⟨hs.nullableSeq_of_rewrites hstep hnull, h⟩)

theorem Closed.tracks_of_rewrites (hs : Closed g s) {root : SymbolId} {u v : List SymbolId}
    (hu : s.Tracks root u) (h : g.Rewrites u v) : s.Tracks root v := by
  obtain ⟨a, b, hr⟩ := h
  rename_i r
  intro front x rest hsplit t ht
  -- the symbol stands behind the body, in it, or before it
  have hafter : ∀ c, b = c ++ x :: rest → t ∈ s.followSet x := by
    rintro c rfl
    exact hu (a ++ r.head :: c) x rest (by simp) t ht
  have hinside : ∀ c d, r.body.toList = c ++ x :: d → rest = d ++ b → t ∈ s.followSet x := by
    rintro c d hbody rfl
    refine hs.follow r hr c x d hbody t (mem_behind.mpr ?_)
    rcases mem_behind.mp ht with ht | ⟨hnull, ht⟩
    · rcases mem_firstOf_append.mp ht with ht | ⟨hd, ht⟩
      · exact Or.inl ht
      · exact Or.inr ⟨hd, hu a r.head b rfl t (mem_behind.mpr (Or.inl ht))⟩
    · obtain ⟨hd, hb⟩ := nullableSeq_append.mp hnull
      exact Or.inr ⟨hd, hu a r.head b rfl t (mem_behind.mpr (Or.inr ⟨hb, ht⟩))⟩
  have hbefore : ∀ c, a = front ++ x :: c → rest = c ++ r.body.toList ++ b →
      t ∈ s.followSet x := by
    rintro c rfl rfl
    exact hu front x (c ++ r.head :: b) (by simp) t (mem_behind_cons_of_mem_behind_append hs hr ht)
  rcases List.append_eq_append_iff.mp hsplit with ⟨c, -, hb⟩ | ⟨c, hab, hrest⟩
  · exact hafter c hb
  · rcases c with _ | ⟨y, c⟩
    · exact hafter [] hrest.symm
    · obtain ⟨rfl, rfl⟩ := List.cons.inj hrest
      rcases List.append_eq_append_iff.mp hab with ⟨d, -, hbody⟩ | ⟨d, ha, htail⟩
      · exact hinside d c hbody rfl
      · rcases d with _ | ⟨z, d⟩
        · exact hinside [] c htail.symm rfl
        · obtain ⟨rfl, rfl⟩ := List.cons.inj htail
          exact hbefore d ha rfl

theorem Closed.tracks_of_derivesTo (hs : Closed g s) {root : SymbolId} {w : List SymbolId}
    (h : g.DerivesTo [root] w) : s.Tracks root w := by
  induction h with
  | refl => exact tracks_root s root
  | tail _ hstep ih => exact hs.tracks_of_rewrites ih hstep

/-! ## The computed sets -/

/-- The sets know of each symbol and each sequence what can be derived, and nothing else. -/
structure Exact (g : Grammar) (s : FirstFollow) : Prop where
  isNullable_iff : ∀ x, s.isNullable x = true ↔ g.DerivesTo [x] []
  mem_firstSet_iff : ∀ x t, t ∈ s.firstSet x ↔ g.IsLookahead t ∧ ∃ b, g.DerivesTo [x] (t :: b)
  mem_followSet_iff : ∀ x t, t ∈ s.followSet x ↔
    (g.IsTerminal t ∧ ∃ n, g.isNonterminal n = true ∧
      ∃ a b, g.DerivesTo [n] (a ++ x :: t :: b)) ∨
    t = g.endOfInput ∧ ∃ a, g.DerivesTo [g.start] (a ++ [x])
  nullableSeq_iff : ∀ w, s.nullableSeq w = true ↔ g.DerivesTo w []
  mem_firstOf_iff : ∀ w t, t ∈ s.firstOf w ↔ g.IsLookahead t ∧ ∃ b, g.DerivesTo w (t :: b)

/-- Sets that are sound, closed and begin each lookahead with itself are exact. -/
theorem exact_of_sound_closed (sound : Sound g s) (closed : Closed g s)
    (self : ∀ t, g.IsLookahead t → t ∈ s.firstSet t) : Exact g s := by
  have hnullable : ∀ w, s.nullableSeq w = true ↔ g.DerivesTo w [] := fun w =>
    ⟨sound.derivesTo_nil, fun h => closed.nullableSeq_of_derivesTo h rfl⟩
  have hfirst : ∀ w t, t ∈ s.firstOf w ↔ g.IsLookahead t ∧ ∃ b, g.DerivesTo w (t :: b) := by
    intro w t
    constructor
    · intro h
      exact ⟨sound.proper.of_mem_firstOf h, sound.derivesTo_of_mem_firstOf h⟩
    · rintro ⟨ht, b, hb⟩
      exact closed.mem_firstOf_of_derivesTo hb (mem_firstOf_cons.mpr (Or.inl (self t ht)))
  refine ⟨fun x => ?_, fun x t => ?_, fun x t => ⟨sound.holds (.follow x t), ?_⟩, hnullable, hfirst⟩
  · rw [← hnullable [x], nullableSeq_cons]
    exact (and_iff_left rfl).symm
  · rw [← hfirst [x] t, mem_firstOf_cons]
    exact (or_iff_left fun h => OrderedSet.not_mem_empty t h.2).symm
  · rintro (⟨ht, n, -, a, b, hab⟩ | ⟨rfl, a, ha⟩)
    · refine closed.tracks_of_derivesTo hab a x (t :: b) rfl t (mem_behind.mpr (Or.inl ?_))
      exact mem_firstOf_cons.mpr (Or.inl (self t (Or.inl ht)))
    · refine closed.tracks_of_derivesTo ha a x [] rfl _ (mem_behind.mpr (Or.inr ⟨rfl, ?_⟩))
      exact closed.finish

/-- **The computation ends with exactly what can be derived.** Each of its three loops comes to a pass
without news, and then the sets know of each symbol and each sequence what the given rules derive. -/
theorem compute_settles_exact (g : Grammar) :
    (∃ s₁ s₂, Settles (updateNullable g) (seed g) s₁ ∧ Settles (updateFirst g) s₁ s₂ ∧
      Settles (updateFollow g) s₂ (compute g)) ∧
    Exact g (compute g) := by
  constructor
  · obtain ⟨s₁, s₂, h₁, h₂, h₃⟩ := compute_phases g
    exact ⟨s₁, s₂, h₁.settles, h₂.settles, h₃.settles⟩
  · refine exact_of_sound_closed (sound_compute g) (compute_proper_closed g).2 fun t ht => ?_
    exact knows_compute_of_seed (f := .first t t) ((firstSet_seed g t t).mpr ⟨rfl, ht⟩)

end FirstFollow

end ShiftReduce
