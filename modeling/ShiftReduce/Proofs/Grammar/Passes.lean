import ShiftReduce.Proofs.Grammar.DerivedFacts

/-!
# Passes in any order

An analysis that is driven by hand takes passes in an order of its own, and repeats them as it likes.
Whatever it does, all it finds holds (`sound_ofPasses`), and nothing it has found is lost
(`knows_ofPasses_append`). Once no kind of pass has news, the sets are closed (`closed_of_quiet`), and
closed sets of which all holds know just what can be derived. So there is one place where the passes
come to rest, and the computation ends there (`passes_confluent`).
-/

namespace ShiftReduce

namespace FirstFollow

variable {g : Grammar} {s s' : FirstFollow}

/-! ## Passes by aspect -/

/-- The step that is after an aspect. -/
def Aspect.step : Aspect → Step
  | .nullable => .nullable
  | .first => .first
  | .follow => .follow

/-- One pass over the rules after an aspect. -/
def Aspect.pass (k : Aspect) (g : Grammar) (s : FirstFollow) : FirstFollow × Bool := k.step.run g s

/-- The sets after passes from the seed, in the order in which they are named. -/
def ofPasses (g : Grammar) (passes : List Aspect) : FirstFollow := ofSteps g (passes.map Aspect.step)

theorem ofPasses_concat (g : Grammar) (passes : List Aspect) (k : Aspect) :
    ofPasses g (passes ++ [k]) = (k.pass g (ofPasses g passes)).1 := by
  rw [ofPasses, ofPasses, ofSteps, ofSteps, List.map_append, List.foldl_append]
  rfl

theorem adds_pass (hs : s.Proper g) (k : Aspect) : Adds g k s (k.pass g s) := by
  cases k with
  | nullable => exact adds_updateNullable hs
  | first => exact adds_updateFirst hs
  | follow => exact adds_updateFollow hs

/-- A pass tells the truth of what it did. -/
theorem pass_news_iff (hs : s.Proper g) (k : Aspect) :
    (k.pass g s).2 = true ↔ (k.pass g s).1 ≠ s := by
  have hadds := adds_pass hs k
  constructor
  · intro hnews hsame
    obtain ⟨f, -, hf, hnew⟩ := hadds.news hnews
    rw [hsame] at hf
    exact hnew hf
  · intro hchanged
    by_contra hquiet
    exact hchanged (hadds.quiet (Bool.eq_false_of_not_eq_true hquiet))

theorem Sound.pass (hs : Sound g s) (k : Aspect) : Sound g (k.pass g s).1 := by
  cases k with
  | nullable => exact hs.updateNullable
  | first => exact hs.updateFirst
  | follow => exact hs.updateFollow

/-! ## Passes from the seed -/

theorem sound_ofPasses (g : Grammar) (passes : List Aspect) : Sound g (ofPasses g passes) := by
  induction passes using List.reverseRecOn with
  | nil => exact sound_seed g
  | append_singleton passes k ih =>
      rw [ofPasses_concat]
      exact ih.pass k

theorem proper_ofPasses (g : Grammar) (passes : List Aspect) : (ofPasses g passes).Proper g :=
  (sound_ofPasses g passes).proper

/-- What has been found stays known. -/
theorem knows_ofPasses_append {passes : List Aspect} (more : List Aspect) {f : Fact}
    (h : (ofPasses g passes).Knows f) : (ofPasses g (passes ++ more)).Knows f := by
  induction more using List.reverseRecOn with
  | nil => rwa [List.append_nil]
  | append_singleton more k ih =>
      rw [← List.append_assoc, ofPasses_concat]
      exact (adds_pass (proper_ofPasses g _) k).extend.kept f ih

theorem knows_ofPasses_of_seed {passes : List Aspect} {f : Fact} (h : (seed g).Knows f) :
    (ofPasses g passes).Knows f :=
  knows_ofPasses_append passes (show (ofPasses g []).Knows f from h)

/-! ## Where passes come to rest -/

/-- Sets that no pass adds to are closed, if they know what the passes begin with. -/
theorem closed_of_quiet (hs : s.Proper g) (hseed : ∀ f, (seed g).Knows f → s.Knows f)
    (hquiet : ∀ k : Aspect, (k.pass g s).2 = false) : Closed g s where
  nullable _ hr := isNullable_head_of_quiet hs (hquiet .nullable) hr
  terminal x hx := hseed (.first x x) ((firstSet_seed g x x).mpr ⟨rfl, Or.inl hx⟩)
  first _ hr _ := mem_firstSet_head_of_quiet hs (hquiet .first) hr
  finish := hseed (.follow g.start g.endOfInput) ((followSet_seed g _ _).mpr ⟨rfl, rfl⟩)
  follow _ hr _ _ _ hsplit _ := mem_followSet_of_quiet hs (hquiet .follow) hr hsplit

theorem Exact.knows_iff (hs : Exact g s) (f : Fact) : s.Knows f ↔ f.Holds g := by
  cases f with
  | nullable x => exact hs.isNullable_iff x
  | first x t => exact hs.mem_firstSet_iff x t
  | follow x t => exact hs.mem_followSet_iff x t

theorem Sound.exact_of_closed (sound : Sound g s) (closed : Closed g s)
    (hseed : ∀ f, (seed g).Knows f → s.Knows f) : Exact g s :=
  exact_of_sound_closed sound closed fun t ht =>
    hseed (.first t t) ((firstSet_seed g t t).mpr ⟨rfl, ht⟩)

theorem exact_compute (g : Grammar) : Exact g (compute g) :=
  (sound_compute g).exact_of_closed (compute_proper_closed g).2 fun _ => knows_compute_of_seed

/-- What holds anywhere is known in the end. -/
theorem Sound.knows_compute (hs : Sound g s) {f : Fact} (hf : s.Knows f) : (compute g).Knows f :=
  ((exact_compute g).knows_iff f).mpr (hs.holds f hf)

/-- A pass has no news for sets that know all that holds. -/
theorem Exact.pass_eq (exact : Exact g s) (sound : Sound g s) (k : Aspect) :
    k.pass g s = (s, false) := by
  have hadds := adds_pass sound.proper k
  have hquiet : (k.pass g s).2 = false := by
    by_contra hnews
    obtain ⟨f, -, hf, hnew⟩ := hadds.news (Bool.eq_true_of_not_eq_false hnews)
    exact hnew ((exact.knows_iff f).mpr ((sound.pass k).holds f hf))
  exact Prod.ext (hadds.quiet hquiet) hquiet

/-- Arrays of one size that answer alike are equal. -/
theorem array_eq_of_getD {α : Type} {xs ys : Array α} (d : α) (hsize : xs.size = ys.size)
    (h : ∀ i : Nat, xs[i]?.getD d = ys[i]?.getD d) : xs = ys := by
  refine Array.ext hsize fun i hx hy => ?_
  have := h i
  rwa [Array.getElem?_eq_getElem hx, Array.getElem?_eq_getElem hy] at this

/-- Sets over equally many symbols that know the same are equal. -/
theorem eq_of_knows_iff {g' : Grammar} (hs : s.Proper g) (hs' : s'.Proper g')
    (hsize : g.vocabulary.size = g'.vocabulary.size) (h : ∀ f, s.Knows f ↔ s'.Knows f) :
    s = s' := by
  have hnullable : s.nullable = s'.nullable :=
    array_eq_of_getD false (by rw [hs.nullable_size, hs'.nullable_size, hsize]) fun x =>
      Bool.eq_iff_iff.mpr (h (.nullable x))
  have hfirst : s.first = s'.first :=
    array_eq_of_getD ∅ (by rw [hs.first_size, hs'.first_size, hsize]) fun x =>
      OrderedSet.ext fun t => h (.first x t)
  have hfollow : s.follow = s'.follow :=
    array_eq_of_getD ∅ (by rw [hs.follow_size, hs'.follow_size, hsize]) fun x =>
      OrderedSet.ext fun t => h (.follow x t)
  cases s
  cases s'
  simp only at hnullable hfirst hfollow
  rw [hnullable, hfirst, hfollow]

/-- **The order of passes does not matter.** After any passes, in any order, the next one has news
just when it changes something; nothing known is lost; and all that is known, the computed sets know.
Once the three kinds of pass have no news, the sets are the computed ones, and on these no pass has
any. -/
theorem passes_confluent (g : Grammar) (passes : List Aspect) :
    (∀ k : Aspect, (k.pass g (ofPasses g passes)).2 = true ↔
      (k.pass g (ofPasses g passes)).1 ≠ ofPasses g passes) ∧
    (∀ more f, (ofPasses g passes).Knows f → (ofPasses g (passes ++ more)).Knows f) ∧
    (∀ f, (ofPasses g passes).Knows f → (compute g).Knows f) ∧
    ((∀ k : Aspect, (k.pass g (ofPasses g passes)).2 = false) → ofPasses g passes = compute g) ∧
    ∀ k : Aspect, k.pass g (compute g) = (compute g, false) := by
  have hsound := sound_ofPasses g passes
  refine ⟨pass_news_iff hsound.proper, fun more _ => knows_ofPasses_append more,
    fun _ => hsound.knows_compute, fun hquiet => ?_, (exact_compute g).pass_eq (sound_compute g)⟩
  have hseed : ∀ f, (seed g).Knows f → (ofPasses g passes).Knows f := fun _ =>
    knows_ofPasses_of_seed
  have hexact : Exact g (ofPasses g passes) :=
    hsound.exact_of_closed (closed_of_quiet hsound.proper hseed hquiet) hseed
  refine eq_of_knows_iff hsound.proper (sound_compute g).proper rfl fun f => ?_
  rw [hexact.knows_iff, (exact_compute g).knows_iff]

/-- Passes that begin at the wrong end, and go back and forth before they find it all. -/
theorem passes_confluent_repetition :
    let passes : List Aspect := [.follow, .first, .follow, .nullable, .first, .first, .follow]
    (∀ k : Aspect, (k.pass repetition (ofPasses repetition passes)).2 = false) ∧
      ofPasses repetition passes = compute repetition := by
  intro passes
  have hquiet : ∀ k : Aspect, (k.pass repetition (ofPasses repetition passes)).2 = false := by
    intro k
    cases k with
    | nullable => decide +kernel
    | first => decide +kernel
    | follow => decide +kernel
  exact ⟨hquiet, (passes_confluent repetition passes).2.2.2.1 hquiet⟩

end FirstFollow

end ShiftReduce
