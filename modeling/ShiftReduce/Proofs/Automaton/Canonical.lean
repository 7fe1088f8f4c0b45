import Mathlib.Data.Set.Card
import ShiftReduce.Proofs.Automaton.Construction
import ShiftReduce.Proofs.Grammar.Derivation

/-!
# The canonical collection

The labels that an automaton ought to have are said without the construction: the start label, and
what `goto` leads to from a label on each symbol but the end marker, where this is not empty
(`Grammar.Canonical`). The construction finds these labels and no others, each once, and a transition
for each `goto` between them (`Automaton.build_canonical`).

The invariant is that only canonical labels are registered. So when a label is refused for want of a
number, there are as many canonical labels as numbers and one more besides, and the limit is neither
hit too early nor too late.
-/

namespace ShiftReduce

variable {g : Grammar}

/-! ## Labels -/

/-- The labels of the canonical collection. -/
inductive Grammar.Canonical (g : Grammar) : ItemSet → Prop
  | start : Canonical g (Automaton.startLabel g)
  | step {label : ItemSet} {x : SymbolId} (h : Canonical g label) (inner : x ≠ g.endOfInput)
      (there : goto g label x ≠ ∅) : Canonical g (goto g label x)

def Grammar.canonicalLabels (g : Grammar) : Set ItemSet := {label | g.Canonical label}

theorem closure_nil (g : Grammar) : closure g [] = ∅ := by
  apply OrderedSet.ext
  intro i
  constructor
  · intro hi
    induction mem_closure_iff.mp hi with
    | given h => exact absurd h List.not_mem_nil
    | predict h awaits rule ih => exact absurd (ih (mem_closure_iff.mpr h)) (OrderedSet.not_mem_empty _)
  · intro hi
    exact absurd hi (OrderedSet.not_mem_empty i)

/-- `goto` leads somewhere on the symbols that a label awaits, and on no others. -/
theorem goto_ne_empty_iff {label : ItemSet} {x : SymbolId} :
    goto g label x ≠ ∅ ↔ ∃ i ∈ label, i.next? g = some x := by
  constructor
  · intro hne
    by_contra hno
    apply hne
    have hnil : awaiting g label x = [] := by
      refine List.eq_nil_iff_forall_not_mem.mpr fun i hi => hno ?_
      exact ⟨i, mem_awaiting.mp hi⟩
    rw [goto, hnil, List.map_nil, closure_nil]
  · rintro ⟨i, hi, hnext⟩ hempty
    have hmem : i.advance ∈ goto g label x :=
      mem_closure_iff.mpr (.given (List.mem_map_of_mem (mem_awaiting.mpr ⟨hi, hnext⟩)))
    rw [hempty] at hmem
    exact OrderedSet.not_mem_empty _ hmem

theorem mem_awaitedSymbols_iff_goto {label : ItemSet} {x : SymbolId} :
    x ∈ awaitedSymbols g label ↔ x ≠ g.endOfInput ∧ goto g label x ≠ ∅ := by
  rw [mem_awaitedSymbols, goto_ne_empty_iff, and_comm]

theorem Grammar.Canonical.of_awaited {label : ItemSet} {x : SymbolId} (h : g.Canonical label)
    (hx : x ∈ awaitedSymbols g label) : g.Canonical (goto g label x) := by
  obtain ⟨inner, there⟩ := mem_awaitedSymbols_iff_goto.mp hx
  exact h.step inner there

/-- Where no body is longer than a cursor can count, every `goto` can be made. -/
theorem goto?_eq_goto (short : ∀ r ∈ g.rules, r.body.size ≤ Item.maxCursor) (label : ItemSet)
    (x : SymbolId) : goto? g label x = some (goto g label x) := by
  apply goto?_eq_some
  intro i hi
  obtain ⟨-, hnext⟩ := mem_awaiting.mp hi
  obtain ⟨r, hr, hx⟩ := Option.bind_eq_some_iff.mp hnext
  have hcursor : i.cursor < r.body.size := (Array.getElem?_eq_some_iff.mp hx).1
  refine Nat.lt_of_lt_of_le hcursor ?_
  rcases hrule : i.rule with _ | k
  · rw [hrule] at hr
    obtain rfl : g.acceptRule = r := Option.some.inj hr
    show 2 ≤ 65535
    decide
  · rw [hrule] at hr
    exact short r (Array.mem_of_getElem? hr)

/-! ## Counting labels -/

/-- Different canonical labels are no more than there are. -/
theorem length_le_encard {labels : List ItemSet} (nodup : labels.Nodup)
    (canonical : ∀ l ∈ labels, g.Canonical l) :
    (labels.length : ℕ∞) ≤ g.canonicalLabels.encard := by
  have hsubset : (labels.toFinset : Set ItemSet) ⊆ g.canonicalLabels := by
    intro l hl
    exact canonical l (List.mem_toFinset.mp (Finset.mem_coe.mp hl))
  have hle := Set.encard_le_encard hsubset
  rwa [Set.encard_coe_eq_coe_finsetCard, List.toFinset_card_of_nodup nodup] at hle

namespace Registry

variable {r r' : Registry}

/-- All registered labels are canonical. -/
def Collects (g : Grammar) (r : Registry) : Prop :=
  ∀ (i : StateId) (l : ItemSet), r.labels[i]? = some l → g.Canonical l

theorem nodup_labels (r : Registry) : r.labels.toList.Nodup := by
  rw [List.nodup_iff_getElem?_ne_getElem?]
  intro i j hij hj heq
  rw [Array.length_toList] at hj
  rw [Array.getElem?_toList, Array.getElem?_toList, Array.getElem?_eq_getElem hj] at heq
  exact Nat.ne_of_lt hij (r.number_unique heq (Array.getElem?_eq_getElem hj))

theorem collects_empty (g : Grammar) : ({} : Registry).Collects g := by
  intro i l hl
  simp at hl

theorem Collects.of_number (h : r.Collects g) {l : ItemSet} {i : StateId} (hl : g.Canonical l)
    (hnumber : r.number l = .ok (i, r')) : r'.Collects g := by
  intro j l' hl'
  rcases number_origin hnumber hl' with hl' | rfl
  · exact h j l' hl'
  · exact hl

theorem Collects.of_mem (h : r.Collects g) {l : ItemSet} (hl : l ∈ r.labels.toList) :
    g.Canonical l := by
  obtain ⟨i, hi⟩ := List.mem_iff_getElem?.mp hl
  rw [Array.getElem?_toList] at hi
  exact h i l hi

/-- A registry that refuses a canonical label has met more than there are numbers. -/
theorem Collects.overfull (h : r.Collects g) {l : ItemSet} {e : AutomatonError}
    (hl : g.Canonical l) (hnumber : r.number l = .error e) :
    e = .tooManyStates ∧ (maxStates : ℕ∞) < g.canonicalLabels.encard := by
  obtain ⟨he, hfull, hfresh⟩ := number_eq_error hnumber
  refine ⟨he, ?_⟩
  have hnew : l ∉ r.labels.toList := by
    intro hmem
    obtain ⟨i, hi⟩ := List.mem_iff_getElem?.mp hmem
    rw [Array.getElem?_toList] at hi
    exact hfresh i hi
  have hle := length_le_encard (List.nodup_cons.mpr ⟨hnew, r.nodup_labels⟩)
    (List.forall_mem_cons.mpr ⟨hl, fun _ => h.of_mem⟩)
  rw [List.length_cons, Array.length_toList, hfull] at hle
  exact lt_of_lt_of_le (by exact_mod_cast Nat.lt_succ_self maxStates) hle

theorem Collects.of_connects (h : r.Collects g) {label : ItemSet} {row row' : Row StateId}
    {xs : List SymbolId} (canonical : g.Canonical label)
    (hxs : ∀ x ∈ xs, x ∈ awaitedSymbols g label) (hconnects : Connects g label r row xs r' row') :
    r'.Collects g := by
  intro i l hl
  rcases hconnects.origin i l hl with hl | ⟨x, hx, rfl⟩
  · exact h i l hl
  · exact canonical.of_awaited (hxs x hx)

/-- The transitions of a row lead to where `goto` does. -/
def Leads (g : Grammar) (r : Registry) (label : ItemSet) (row : Row StateId) : Prop :=
  ∀ (x : SymbolId) (j : StateId), row.find? x = some j → r.labels[j]? = some (goto g label x)

theorem leads_empty (g : Grammar) (r : Registry) (label : ItemSet) : r.Leads g label {} := by
  intro x j hx
  rw [Row.find?_empty] at hx
  cases hx

theorem Leads.extend {label : ItemSet} {row : Row StateId} (h : r.Leads g label row)
    (hextend : r.Extends r') : r'.Leads g label row :=
  fun x j hx => hextend _ _ (h x j hx)

theorem Leads.enter {label : ItemSet} {row row' : Row StateId} {x : SymbolId} {next : StateId}
    (h : r.Leads g label row) (hnext : r.labels[next]? = some (goto g label x))
    (henter : row.enter x next = .ok row') : r.Leads g label row' := by
  intro y j hy
  rw [Row.find?_enter henter] at hy
  split at hy
  · next heq =>
    obtain rfl : next = j := Option.some.inj hy
    rw [heq]
    exact hnext
  · exact h y j hy

end Registry

/-! ## Failures -/

/-- A row is given up only for want of numbers. -/
theorem overfull_of_connect (short : ∀ r ∈ g.rules, r.body.size ≤ Item.maxCursor) {state : StateId}
    {label : ItemSet} {r : Registry} {row : Row StateId} {xs : List SymbolId} {e : AutomatonError}
    (collects : r.Collects g) (canonical : g.Canonical label)
    (hxs : ∀ x ∈ xs, x ∈ awaitedSymbols g label) (leads : r.Leads g label row)
    (h : connect g state label r row xs = .error e) :
    e = .tooManyStates ∧ (maxStates : ℕ∞) < g.canonicalLabels.encard := by
  induction xs generalizing r row with
  | nil => cases h
  | cons x rest ih =>
      obtain ⟨hx, hrest⟩ := List.forall_mem_cons.mp hxs
      have htarget := canonical.of_awaited hx
      rw [connect, goto?_eq_goto short] at h
      dsimp only at h
      split at h
      · next e' hnumber =>
        obtain rfl := Except.error.inj h
        exact collects.overfull htarget hnumber
      next next r₁ hnumber =>
      obtain ⟨hextend, hnext, -⟩ := Registry.number_spec hnumber
      have hcollects := collects.of_number htarget hnumber
      have hleads := leads.extend hextend
      split at h
      · next old henter =>
        -- what is there already leads to the same label, and this has one number
        have hold := hleads x old (Row.find?_of_enter_eq_error henter)
        rw [if_pos (r₁.number_unique hold hnext)] at h
        exact ih hcollects hrest hleads h
      · next row₁ henter => exact ih hcollects hrest (hleads.enter hnext henter) h

theorem explore_outcome (short : ∀ r ∈ g.rules, r.body.size ≤ Item.maxCursor) {r : Registry}
    (collects : r.Collects g) :
    match explore g r #[] with
    | .ok (r', _) => r'.Collects g
    | .error e => e = .tooManyStates ∧ (maxStates : ℕ∞) < g.canonicalLabels.encard := by
  have hstep : ∀ (r₁ : Registry) (rows : Array (Row StateId)) (label : ItemSet) (r₂ : Registry)
      (row : Row StateId), r₁.Collects g → r₁.labels[rows.size]? = some label →
      connect g rows.size label r₁ {} (awaitedSymbols g label).toList = .ok (r₂, row) →
      r₂.Collects g := by
    intro r₁ rows label r₂ row hcollects hlabel hconnect
    exact hcollects.of_connects (hcollects _ _ hlabel) (fun _ => OrderedSet.mem_toList.mp)
      (connects_of_connect hconnect)
  have houtcome := @explore_induction g (fun r _ => r.Collects g) hstep r #[] collects
  cases hexplore : explore g r #[] with
  | ok answer =>
      rw [hexplore] at houtcome
      exact houtcome.1
  | error e =>
      rw [hexplore] at houtcome
      obtain ⟨r', rows, label, hcollects, hlabel, herror⟩ := houtcome
      exact overfull_of_connect short hcollects (hcollects _ _ hlabel)
        (fun _ => OrderedSet.mem_toList.mp) (Registry.leads_empty g r' label) herror

/-! ## The whole automaton -/

namespace Automaton

/-- The states are the canonical labels, each under one of the first numbers, and the transitions are
those of `goto` between them. -/
structure IsCanonical (g : Grammar) (a : Automaton) : Prop where
  size : (a.size : ℕ∞) = g.canonicalLabels.encard
  numbers : ∀ i, i < a.size ↔ ∃ label, a.label? i = some label
  start : a.label? 0 = some (startLabel g)
  injective : ∀ i j label, a.label? i = some label → a.label? j = some label → i = j
  surjective : ∀ label, g.Canonical label ↔ ∃ i, a.label? i = some label
  transition?_iff : ∀ i x j, a.transition? i x = some j ↔ ∃ label, a.label? i = some label ∧
    x ≠ g.endOfInput ∧ goto g label x ≠ ∅ ∧ a.label? j = some (goto g label x)

theorem lt_size_iff_exists_label {a : Automaton} {i : StateId} :
    i < a.size ↔ ∃ label, a.label? i = some label := by
  constructor
  · intro hi
    exact ⟨_, congrArg (Option.map State.label) (Array.getElem?_eq_getElem hi)⟩
  · rintro ⟨label, hlabel⟩
    obtain ⟨s, hs, -⟩ := Option.map_eq_some_iff.mp hlabel
    exact (Array.getElem?_eq_some_iff.mp hs).1

/-- An automaton that is closed under `goto` has all canonical labels. -/
theorem Serves.exists_label {a : Automaton} (serves : a.Serves g) {label : ItemSet}
    (h : g.Canonical label) : ∃ i, a.label? i = some label := by
  induction h with
  | start => exact ⟨0, serves.start⟩
  | step h inner there ih =>
      obtain ⟨i, hi⟩ := ih
      have hawaited := mem_awaitedSymbols_iff_goto.mpr ⟨inner, there⟩
      obtain ⟨j, hj⟩ := serves.complete i _ _ hi hawaited
      obtain ⟨label', hlabel', -, htarget⟩ := serves.sound i _ j hj
      obtain rfl := Option.some.inj (hi.symm.trans hlabel')
      exact ⟨j, htarget⟩

theorem Serves.transition?_iff {a : Automaton} (serves : a.Serves g)
    (injective : ∀ i j label, a.label? i = some label → a.label? j = some label → i = j)
    {i j : StateId} {x : SymbolId} :
    a.transition? i x = some j ↔ ∃ label, a.label? i = some label ∧
      x ≠ g.endOfInput ∧ goto g label x ≠ ∅ ∧ a.label? j = some (goto g label x) := by
  constructor
  · intro edge
    obtain ⟨label, hlabel, hawaited, htarget⟩ := serves.sound i x j edge
    obtain ⟨inner, there⟩ := mem_awaitedSymbols_iff_goto.mp hawaited
    exact ⟨label, hlabel, inner, there, htarget⟩
  · rintro ⟨label, hlabel, inner, there, htarget⟩
    obtain ⟨k, hk⟩ := serves.complete i label x hlabel
      (mem_awaitedSymbols_iff_goto.mpr ⟨inner, there⟩)
    obtain ⟨label', hlabel', -, htarget'⟩ := serves.sound i x k hk
    obtain rfl := Option.some.inj (hlabel.symm.trans hlabel')
    rw [injective j k _ htarget htarget']
    exact hk

theorem isCanonical_of_build (short : ∀ r ∈ g.rules, r.body.size ≤ Item.maxCursor) {a : Automaton}
    (h : build g = .ok a) : a.IsCanonical g ∧ a.size ≤ maxStates := by
  have serves := serves_of_build h
  obtain ⟨r₀, r, rows, hnumber, hexplore, ha⟩ := exists_explore_of_build h
  obtain ⟨-, -, hrows⟩ := explore_spec (rowsServe_empty r₀) hexplore
  have hlabels : ∀ i : StateId, a.label? i = r.labels[i]? := by
    rw [ha]
    exact label?_zipWith hrows
  have hsize : a.size = r.labels.size := by
    rw [ha, Automaton.size, Array.size_zipWith, Nat.min_eq_left hrows]
  have hcollects : r.Collects g := by
    have := explore_outcome short ((Registry.collects_empty g).of_number .start hnumber)
    rwa [hexplore] at this
  have hinjective : ∀ i j label, a.label? i = some label → a.label? j = some label → i = j := by
    intro i j label hi hj
    rw [hlabels] at hi hj
    exact r.number_unique hi hj
  have hsurjective : ∀ label, g.Canonical label ↔ ∃ i, a.label? i = some label := by
    intro label
    refine ⟨serves.exists_label, ?_⟩
    rintro ⟨i, hi⟩
    rw [hlabels] at hi
    exact hcollects i label hi
  have hset : g.canonicalLabels = (r.labels.toList.toFinset : Set ItemSet) := by
    ext label
    show g.Canonical label ↔ _
    rw [hsurjective, Finset.mem_coe, List.mem_toFinset, List.mem_iff_getElem?]
    simp only [hlabels, Array.getElem?_toList]
  refine ⟨⟨?_, fun _ => lt_size_iff_exists_label, serves.start, hinjective, hsurjective,
    fun _ _ _ => serves.transition?_iff hinjective⟩, hsize ▸ r.size_le⟩
  rw [hset, Set.encard_coe_eq_coe_finsetCard, List.toFinset_card_of_nodup r.nodup_labels,
    Array.length_toList, hsize]

theorem overfull_of_build (short : ∀ r ∈ g.rules, r.body.size ≤ Item.maxCursor)
    {e : AutomatonError} (h : build g = .error e) :
    e = .tooManyStates ∧ (maxStates : ℕ∞) < g.canonicalLabels.encard := by
  unfold build at h
  split at h
  · next e' hnumber =>
    obtain rfl := Except.error.inj h
    exact (Registry.collects_empty g).overfull .start hnumber
  next i₀ r₀ hnumber =>
  split at h
  · next e' hexplore =>
    obtain rfl := Except.error.inj h
    have := explore_outcome short ((Registry.collects_empty g).of_number .start hnumber)
    rwa [hexplore] at this
  · cases h

/-- **The automaton is the canonical collection.** Where no body is longer than a cursor can count, the
construction finds the canonical labels and the transitions between them if there are numbers for all,
and else says that there are too many. It never finds two transitions in one place. -/
theorem build_canonical (short : ∀ r ∈ g.rules, r.body.size ≤ Item.maxCursor) :
    (g.canonicalLabels.encard ≤ maxStates → ∃ a, build g = .ok a ∧ a.IsCanonical g) ∧
      ((maxStates : ℕ∞) < g.canonicalLabels.encard → build g = .error .tooManyStates) ∧
      ∀ i x j k, build g ≠ .error (.nondeterministic i x j k) := by
  refine ⟨fun hroom => ?_, fun hover => ?_, fun i x j k herror => ?_⟩
  · cases hbuild : build g with
    | ok a => exact ⟨a, rfl, (isCanonical_of_build short hbuild).1⟩
    | error e => exact absurd (overfull_of_build short hbuild).2 (not_lt.mpr hroom)
  · cases hbuild : build g with
    | ok a =>
        obtain ⟨hcanonical, hsize⟩ := isCanonical_of_build short hbuild
        rw [← hcanonical.size] at hover
        exact absurd hover (not_lt.mpr (by exact_mod_cast hsize))
    | error e => rw [(overfull_of_build short hbuild).1]
  · cases (overfull_of_build short herror).1

/-- The canonical collection of `repetition` has five labels. -/
theorem build_repetition_canonical :
    (∀ r ∈ repetition.rules, r.body.size ≤ Item.maxCursor) ∧
      repetition.canonicalLabels.encard = 5 ∧
      ∃ a, build repetition = .ok a ∧ a.IsCanonical repetition := by
  have hshort : ∀ r ∈ repetition.rules, r.body.size ≤ Item.maxCursor := by decide +kernel
  have hsize : (build repetition).toOption.map Automaton.size = some 5 := by decide +kernel
  obtain ⟨hroom, hover, -⟩ := build_canonical hshort
  have hle : repetition.canonicalLabels.encard ≤ maxStates := by
    by_contra hlt
    rw [hover (not_le.mp hlt)] at hsize
    cases hsize
  obtain ⟨a, hbuild, hcanonical⟩ := hroom hle
  rw [hbuild] at hsize
  have ha : a.size = 5 := Option.some.inj hsize
  refine ⟨hshort, ?_, a, hbuild, hcanonical⟩
  rw [← hcanonical.size, ha]
  rfl

end Automaton

end ShiftReduce
