import Mathlib.Data.List.Shortlex
import ShiftReduce.Proofs.Automaton.Path

/-!
# The order of discovery

The states are taken in the order of their numbers, and each is left on its symbols in ascending order.
So the places at which the construction looks for new states, a state and a symbol each, come in the
order of the pairs, and a state has the next free number when its place is come to. What is kept of this
is that the states before a state are found at earlier places than the ones that lead to it
(`Discovery`).

An access string of a state is the first of the sequences of symbols that lead to it from the start, if
shorter ones come first and sequences of one length are ordered by their symbols. By induction over the
sequences the order of the places is the order of these strings, so the states are numbered in the order
of their access strings (`Automaton.lt_iff_shortlex`).
-/

namespace ShiftReduce

variable {g : Grammar}

/-! ## Rows in order -/

/-- The states up to `size` but the first are found from earlier ones, and where an edge leads to a state,
there are edges from earlier places to all those before it. -/
structure Discovery (size : Nat) (edge? : StateId → SymbolId → Option StateId) : Prop where
  found : ∀ j : Nat, 0 < j → j < size → ∃ (p : Nat) (x : Nat), p < j ∧ edge? p x = some j
  first : ∀ p x k : Nat, edge? p x = some k → ∀ j, 0 < j → j < k →
    ∃ p' x' : Nat, edge? p' x' = some j ∧ (p' < p ∨ p' = p ∧ x' < x)

/-- The row has found the states from `n` up to `size`, in the order of its symbols. -/
structure Row.Discovers (row : Row StateId) (n size : Nat) : Prop where
  found : ∀ j : Nat, n ≤ j → j < size → ∃ x, row.find? x = some j
  first : ∀ x k : Nat, row.find? x = some k → k < size ∧ ∀ j, n ≤ j → j < k →
    ∃ x' : Nat, row.find? x' = some j ∧ x' < x

theorem Row.discovers_empty (n : Nat) : ({} : Row StateId).Discovers n n where
  found _ hle hlt := absurd hlt (Nat.not_lt.mpr hle)
  first := nofun

/-- A new label gets the next number, and a known one keeps its own. -/
theorem Registry.size_of_number {r r' : Registry} {l : ItemSet} {i : Nat}
    (h : r.number l = .ok (i, r')) : r'.labels.size = max r.labels.size (i + 1) := by
  unfold number at h
  split at h
  · next j hj =>
    simp only [Except.ok.injEq, Prod.mk.injEq] at h
    obtain ⟨rfl, rfl⟩ := h
    have hlt := (Array.getElem?_eq_some_iff.mp ((r.numbers_iff l j).mp hj)).1
    omega
  · dsimp only at h
    split at h
    · simp only [Except.ok.injEq, Prod.mk.injEq] at h
      obtain ⟨rfl, rfl⟩ := h
      simp [push]
    · cases h

section

variable {r r' : Registry} {row row' : Row StateId} {x : SymbolId} {n : Nat}

/-- A transition behind all others of the row. -/
theorem Row.Discovers.enter (h : row.Discovers n r.labels.size) {l : ItemSet} {next : Nat}
    (hnumber : r.number l = .ok (next, r')) (henter : row.enter x next = .ok row')
    (behind : ∀ y k, row.find? y = some k → y < x) : row'.Discovers n r'.labels.size := by
  have hsize := Registry.size_of_number hnumber
  have hnext : next ≤ r.labels.size := (Registry.number_spec hnumber).2.2
  have hfind := Row.find?_enter henter
  have hfree := Row.find?_of_enter_eq_ok henter
  have hkept : ∀ y k, row.find? y = some k → row'.find? y = some k := by
    intro y k hy
    rw [hfind, if_neg]
    · exact hy
    · rintro rfl
      rw [hfree] at hy
      cases hy
  constructor
  · intro j hn hj
    by_cases hold : j < r.labels.size
    · obtain ⟨y, hy⟩ := h.found j hn hold
      exact ⟨y, hkept y j hy⟩
    · obtain rfl : j = next := by omega
      exact ⟨x, by rw [hfind, if_pos rfl]⟩
  · intro y k hy
    rw [hfind] at hy
    by_cases hyx : y = x
    · rw [if_pos hyx] at hy
      obtain rfl := Option.some.inj hy
      subst hyx
      refine ⟨by omega, ?_⟩
      intro j hn hj
      obtain ⟨z, hz⟩ := h.found j hn (by omega)
      exact ⟨z, hkept z j hz, behind z j hz⟩
    · rw [if_neg hyx] at hy
      obtain ⟨hk, hfirst⟩ := h.first y k hy
      refine ⟨by omega, ?_⟩
      intro j hn hj
      obtain ⟨z, hz, hzy⟩ := hfirst j hn hj
      exact ⟨z, hkept z j hz, hzy⟩

theorem Row.Discovers.of_connect {state : StateId} {label : ItemSet} {xs : List SymbolId}
    (h : row.Discovers n r.labels.size) (ascending : xs.Pairwise (· < ·))
    (behind : ∀ y k, row.find? y = some k → ∀ x ∈ xs, y < x)
    (hconnect : connect g state label r row xs = .ok (r', row')) :
    row'.Discovers n r'.labels.size := by
  induction xs generalizing r row with
  | nil =>
      simp only [connect, Except.ok.injEq, Prod.mk.injEq] at hconnect
      obtain ⟨rfl, rfl⟩ := hconnect
      exact h
  | cons x rest ih =>
      obtain ⟨hx, hrest⟩ := List.pairwise_cons.mp ascending
      have hbehind : ∀ y k, row.find? y = some k → y < x := by
        intro y k hy
        exact behind y k hy x List.mem_cons_self
      rw [connect] at hconnect
      split at hconnect
      · cases hconnect
      next target hgoto =>
      split at hconnect
      · cases hconnect
      next next r₁ hnumber =>
      split at hconnect
      · next old henter =>
        have hold := Row.find?_of_enter_eq_error henter
        exact absurd (hbehind x old hold) (Nat.lt_irrefl x)
      · next row₁ henter =>
        refine ih (h.enter hnumber henter hbehind) hrest ?_ hconnect
        intro y k hy z hz
        rw [Row.find?_enter henter] at hy
        by_cases hyx : y = x
        · subst hyx
          exact hx z hz
        · rw [if_neg hyx] at hy
          exact behind y k hy z (List.mem_cons_of_mem x hz)

end

/-- Sets of symbols are listed in ascending order. -/
theorem pairwise_lt_toList (s : OrderedSet SymbolId) : s.toList.Pairwise (· < ·) :=
  s.ascending.imp Nat.compare_eq_lt.mp

/-! ## The exploration -/

/-- The edges of finished rows. -/
def edge? (rows : Array (Row StateId)) (p : StateId) (x : SymbolId) : Option StateId :=
  rows[p]?.bind fun row => row.find? x

theorem edge?_push (rows : Array (Row StateId)) (row : Row StateId) (p : StateId) (x : SymbolId) :
    edge? (rows.push row) p x = if p = rows.size then row.find? x else edge? rows p x := by
  rw [edge?, edge?, Array.getElem?_push]
  by_cases hp : p = rows.size
  · rw [if_pos hp, if_pos hp, Option.bind_some]
  · rw [if_neg hp, if_neg hp]

theorem lt_size_of_edge? {rows : Array (Row StateId)} {p j : Nat} {x : SymbolId}
    (h : edge? rows p x = some j) : p < rows.size := by
  obtain ⟨row, hrow, -⟩ := Option.bind_eq_some_iff.mp h
  exact (Array.getElem?_eq_some_iff.mp hrow).1

theorem Discovery.push {size size' : Nat} {rows : Array (Row StateId)} {row : Row StateId}
    (h : Discovery size (edge? rows)) (hrow : row.Discovers size size') (hlt : rows.size < size) :
    Discovery size' (edge? (rows.push row)) := by
  have hkept : ∀ p x j, edge? rows p x = some j → edge? (rows.push row) p x = some j := by
    intro p x j hedge
    rw [edge?_push, if_neg (Nat.ne_of_lt (lt_size_of_edge? hedge))]
    exact hedge
  have hnew : ∀ x, edge? (rows.push row) rows.size x = row.find? x := by
    intro x
    rw [edge?_push, if_pos rfl]
  constructor
  · intro j hpos hj
    by_cases hold : j < size
    · obtain ⟨p, x, hp, hedge⟩ := h.found j hpos hold
      exact ⟨p, x, hp, hkept p x j hedge⟩
    · obtain ⟨x, hx⟩ := hrow.found j (by omega) hj
      exact ⟨rows.size, x, by omega, by rw [hnew, hx]⟩
  · intro p x k hedge j hpos hj
    rw [edge?_push] at hedge
    by_cases hp : p = rows.size
    · rw [if_pos hp] at hedge
      by_cases hold : j < size
      · obtain ⟨p', x', -, hedge'⟩ := h.found j hpos hold
        have hlt' := lt_size_of_edge? hedge'
        exact ⟨p', x', hkept p' x' j hedge', Or.inl (by omega)⟩
      · obtain ⟨x', hx', hlt'⟩ := (hrow.first x k hedge).2 j (by omega) hj
        exact ⟨rows.size, x', by rw [hnew, hx'], Or.inr ⟨hp.symm, hlt'⟩⟩
    · rw [if_neg hp] at hedge
      obtain ⟨p', x', hedge', hbefore⟩ := h.first p x k hedge j hpos hj
      exact ⟨p', x', hkept p' x' j hedge', hbefore⟩

/-- What an exploration has done so far: it started from the start label, its finished rows serve their
labels, and it came on the labels in their order. -/
structure Explored (g : Grammar) (r : Registry) (rows : Array (Row StateId)) : Prop where
  start : r.labels[0]? = some (Automaton.startLabel g)
  serves : RowsServe g r rows
  order : Discovery r.labels.size (edge? rows)

theorem Explored.push {r r' : Registry} {rows : Array (Row StateId)} {label : ItemSet}
    {row : Row StateId} (h : Explored g r rows) (hlabel : r.labels[rows.size]? = some label)
    (hconnect : connect g rows.size label r {} (awaitedSymbols g label).toList = .ok (r', row)) :
    Explored g r' (rows.push row) := by
  have hconnects := connects_of_connect hconnect
  have hrow := (Row.discovers_empty r.labels.size).of_connect (pairwise_lt_toList _) nofun hconnect
  exact ⟨hconnects.extend _ _ h.start, h.serves.push hlabel hconnects,
    h.order.push hrow (Array.getElem?_eq_some_iff.mp hlabel).1⟩

/-- The first label alone. -/
theorem explored_empty {r : Registry} {i : StateId}
    (h : ({} : Registry).number (Automaton.startLabel g) = .ok (i, r)) : Explored g r #[] := by
  obtain ⟨-, hlabel, hi⟩ := Registry.number_spec h
  obtain rfl : i = 0 := Nat.le_zero.mp hi
  have hsize : r.labels.size = 1 := Registry.size_of_number h
  refine ⟨hlabel, Automaton.rowsServe_empty r, ?_, nofun⟩
  intro j hpos hj
  omega

/-- Whether an exploration ends well or fails, it has gone on in order. -/
theorem explored_of_explore {r : Registry} {i : StateId}
    (h : ({} : Registry).number (Automaton.startLabel g) = .ok (i, r)) :
    match explore g r #[] with
    | .ok (r', rows) => Explored g r' rows ∧ r'.labels.size ≤ rows.size
    | .error e => ∃ r' rows label, Explored g r' rows ∧ r'.labels[rows.size]? = some label ∧
        connect g rows.size label r' {} (awaitedSymbols g label).toList = .error e :=
  explore_induction (motive := Explored g) (fun _ _ _ _ _ hexplored hlabel hconnect =>
    hexplored.push hlabel hconnect) (explored_empty h)

namespace Automaton

variable {a : Automaton}

/-- The transitions of an automaton are found in the order of its states. -/
theorem discovery_of_build (h : build g = .ok a) : Discovery a.size a.transition? := by
  obtain ⟨r₀, r, rows, hnumber, hexplore, rfl⟩ := exists_explore_of_build h
  have houtcome := explored_of_explore hnumber
  rw [hexplore] at houtcome
  obtain ⟨⟨-, -, horder⟩, hrows⟩ := houtcome
  have hsize : Automaton.size ⟨r.labels.zipWith State.mk rows⟩ = r.labels.size := by
    rw [Automaton.size, Array.size_zipWith, Nat.min_eq_left hrows]
  have hedge : ∀ p x, p < r.labels.size →
      (⟨r.labels.zipWith State.mk rows⟩ : Automaton).transition? p x = edge? rows p x := by
    intro p x hp
    rw [transition?, state?_zipWith, Array.getElem?_eq_getElem hp, Option.bind_some, edge?]
    cases rows[p]? <;> rfl
  rw [hsize]
  constructor
  · intro j hpos hj
    obtain ⟨p, x, hp, hpx⟩ := horder.found j hpos hj
    exact ⟨p, x, hp, by rw [hedge p x (by omega), hpx]⟩
  · intro p x k hpx j hpos hj
    obtain ⟨label, row, hlabel, -, -⟩ := transition?_zipWith_eq_some_iff.mp hpx
    have hp : p < r.labels.size := (Array.getElem?_eq_some_iff.mp hlabel).1
    rw [hedge p x hp] at hpx
    obtain ⟨p', x', hpx', hbefore⟩ := horder.first p x k hpx j hpos hj
    exact ⟨p', x', by rw [hedge p' x' (by omega), hpx'], hbefore⟩

end Automaton

/-! ## Sequences of symbols in order -/

section

variable {u v w : List SymbolId}

theorem shortlex_trans (huv : List.Shortlex (· < ·) u v) (hvw : List.Shortlex (· < ·) v w) :
    List.Shortlex (· < ·) u w := by
  rw [List.shortlex_def] at huv hvw ⊢
  rcases huv with huv | ⟨huv, hlex⟩
  · left
    omega
  · rcases hvw with hvw | ⟨hvw, hlex'⟩
    · left
      omega
    · exact Or.inr ⟨huv.trans hvw, List.lex_trans Nat.lt_trans hlex hlex'⟩

/-- One more symbol on each side does not change the order. -/
theorem shortlex_concat (h : List.Shortlex (· < ·) u v) (x y : SymbolId) :
    List.Shortlex (· < ·) (u ++ [x]) (v ++ [y]) := by
  rcases List.shortlex_def.mp h with hlength | ⟨hlength, hlex⟩
  · exact .of_length_lt (by simpa using hlength)
  · apply List.Shortlex.of_lex
    · simpa using hlength
    · clear h
      induction hlex with
      | nil => simp at hlength
      | cons hlex ih => exact .cons (ih (by simpa using hlength))
      | rel hlt => exact .rel hlt

end

/-! ## Access strings -/

namespace Automaton

variable {a : Automaton}

/-- The first of all sequences of symbols that lead from the start to a state. -/
structure IsAccess (a : Automaton) (w : List SymbolId) (i : StateId) : Prop where
  path : a.path? 0 w = some i
  least : ∀ v, a.path? 0 v = some i → v ≠ w → List.Shortlex (· < ·) w v

/-- There is a path to each state, by way of the states that they are found from. -/
theorem exists_path (order : Discovery a.size a.transition?) {i : Nat} (hi : i < a.size) :
    ∃ w, a.path? 0 w = some i := by
  induction i using Nat.strongRecOn with
  | ind i ih =>
      rcases Nat.eq_zero_or_pos i with rfl | hpos
      · exact ⟨[], rfl⟩
      · obtain ⟨p, x, hp, hedge⟩ := order.found i hpos hi
        obtain ⟨w, hw⟩ := ih p hp (Nat.lt_trans hp hi)
        exact ⟨w ++ [x], by rw [path?_snoc, hw, Option.bind_some, hedge]⟩

/-- Each state has an access string. -/
theorem exists_isAccess (order : Discovery a.size a.transition?) {i : Nat} (hi : i < a.size) :
    ∃ w, a.IsAccess w i := by
  have hwf : WellFounded (List.Shortlex fun x y : SymbolId => x < y) :=
    List.Shortlex.wf Nat.lt_wfRel.wf
  obtain ⟨w, hw, hleast⟩ := hwf.has_min {w | a.path? 0 w = some i} (exists_path order hi)
  refine ⟨w, hw, ?_⟩
  intro v hv hne
  by_contra hnot
  exact hne (Std.Trichotomous.trichotomous v w (hleast v hv) hnot)

/-- **Paths to earlier states.** For each path to a state there is an earlier one to each state before
it. -/
theorem exists_path_shortlex (order : Discovery a.size a.transition?) {v : List SymbolId}
    {j k : Nat} (hv : a.path? 0 v = some k) (hjk : j < k) :
    ∃ u, a.path? 0 u = some j ∧ List.Shortlex (· < ·) u v := by
  induction v using List.reverseRecOn generalizing j k with
  | nil =>
      obtain rfl : 0 = k := Option.some.inj hv
      exact absurd hjk (Nat.not_lt_zero j)
  | append_singleton v x ih =>
      rw [path?_snoc] at hv
      obtain ⟨p, hp, hedge⟩ := Option.bind_eq_some_iff.mp hv
      rcases Nat.eq_zero_or_pos j with rfl | hpos
      · exact ⟨[], rfl, .of_length_lt (by simp)⟩
      obtain ⟨p', x', hedge', hbefore⟩ := order.first p x k hedge j hpos hjk
      rcases hbefore with hlt | ⟨rfl, hlt⟩
      · -- the state is found from an earlier one, to which there is an earlier path
        obtain ⟨u, hu, hshort⟩ := ih hp hlt
        exact ⟨u ++ [x'], by rw [path?_snoc, hu, Option.bind_some, hedge'], shortlex_concat hshort x' x⟩
      · refine ⟨v ++ [x'], by rw [path?_snoc, hp, Option.bind_some, hedge'], ?_⟩
        exact .append_left ((List.shortlex_singleton_iff x' x).mpr hlt) v

/-- The access string of an earlier state is earlier. -/
theorem IsAccess.shortlex (order : Discovery a.size a.transition?) {i j : Nat}
    {u v : List SymbolId} (hu : a.IsAccess u i) (hv : a.IsAccess v j) (hlt : i < j) :
    List.Shortlex (· < ·) u v := by
  obtain ⟨w, hw, hshort⟩ := exists_path_shortlex order hv.path hlt
  by_cases hwu : w = u
  · rw [← hwu]
    exact hshort
  · exact shortlex_trans (hu.least w hw hwu) hshort

/-- **The states are numbered in the order of their access strings**, which they all have: shorter ones
come first, and those of one length are ordered by their symbols. -/
theorem lt_iff_shortlex (h : build g = .ok a) :
    (∀ i < a.size, ∃ w, a.IsAccess w i) ∧
      ∀ i j u v, a.IsAccess u i → a.IsAccess v j → (i < j ↔ List.Shortlex (· < ·) u v) := by
  have order := discovery_of_build h
  refine ⟨fun i hi => exists_isAccess order hi, ?_⟩
  intro i j u v hu hv
  constructor
  · intro hlt
    exact hu.shortlex order hv hlt
  · intro hshort
    rcases Nat.lt_trichotomy i j with hlt | rfl | hgt
    · exact hlt
    · -- one state has one access string
      by_cases huv : u = v
      · rw [huv] at hshort
        exact absurd hshort (Std.Asymm.asymm v v hshort)
      · exact absurd hshort (Std.Asymm.asymm v u (hv.least u hu.path huv))
    · exact absurd hshort (Std.Asymm.asymm v u (hv.shortlex order hu hgt))

/-- Behind `LIST` the automaton of `repetition` comes on the state behind `a` before the one behind
`OPTION`. -/
theorem lt_iff_shortlex_repetition : ∃ a, build repetition = .ok a ∧
    a.path? 0 [3, 0] = some 2 ∧ a.path? 0 [3, 4] = some 3 ∧
    ∃ u v, a.IsAccess u 2 ∧ a.IsAccess v 3 ∧ List.Shortlex (· < ·) u v := by
  have hbuild := eq_ok_valueOf isOk_build_repetition
  have hsize : (valueOf _ isOk_build_repetition).size = 5 := by decide +kernel
  obtain ⟨hexists, horder⟩ := lt_iff_shortlex hbuild
  obtain ⟨u, hu⟩ := hexists 2 (by rw [hsize]; decide)
  obtain ⟨v, hv⟩ := hexists 3 (by rw [hsize]; decide)
  exact ⟨_, hbuild, by decide +kernel, by decide +kernel, u, v, hu, hv,
    (horder 2 3 u v hu hv).mp (by decide)⟩

end Automaton

end ShiftReduce
