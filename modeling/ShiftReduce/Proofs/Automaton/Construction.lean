import ShiftReduce.Automaton.Basic
import ShiftReduce.Proofs.Automaton.ItemSet

/-!
# The automaton that is built

The construction numbers labels as it meets them, so a transition is written down before the state
that it leads to has been looked at. The invariant is that a number, once given, stays with its label
(`Registry.Extends`), and that each finished row has the transitions of its label and no others
(`Registry.Serves`). In the end all rows are finished (`Automaton.serves_of_build`).
-/

namespace ShiftReduce

variable {g : Grammar}

/-! ## Numbers stay -/

namespace Registry

/-- All labels of the one registry have the same numbers in the other. -/
def Extends (r r' : Registry) : Prop :=
  ∀ (i : StateId) (l : ItemSet), r.labels[i]? = some l → r'.labels[i]? = some l

theorem Extends.refl (r : Registry) : r.Extends r := fun _ _ h => h

theorem Extends.trans {r₁ r₂ r₃ : Registry} (h₁ : r₁.Extends r₂) (h₂ : r₂.Extends r₃) :
    r₁.Extends r₃ :=
  fun i l h => h₂ i l (h₁ i l h)

theorem number_spec {r r' : Registry} {l : ItemSet} {i : StateId}
    (h : r.number l = .ok (i, r')) :
    r.Extends r' ∧ r'.labels[i]? = some l ∧ i ≤ r.labels.size := by
  unfold number at h
  split at h
  · next j hj =>
    simp only [Except.ok.injEq, Prod.mk.injEq] at h
    obtain ⟨rfl, rfl⟩ := h
    have hlabel := (r.numbers_iff l j).mp hj
    exact ⟨.refl r, hlabel, Nat.le_of_lt (Array.getElem?_eq_some_iff.mp hlabel).1⟩
  · next hfresh =>
    dsimp only at h
    split at h
    · next room =>
      simp only [Except.ok.injEq, Prod.mk.injEq] at h
      obtain ⟨rfl, rfl⟩ := h
      refine ⟨fun i l' hl' => ?_, ?_, Nat.le_refl _⟩
      · have hi := (Array.getElem?_eq_some_iff.mp hl').1
        show (r.labels.push l)[i]? = some l'
        rw [Array.getElem?_push, if_neg (Nat.ne_of_lt hi), hl']
      · show (r.labels.push l)[r.labels.size]? = some l
        rw [Array.getElem?_push, if_pos rfl]
    · cases h

/-- A new registry has no labels but the old ones and the one that was asked for. -/
theorem number_origin {r r' : Registry} {l l' : ItemSet} {i j : StateId}
    (h : r.number l = .ok (i, r')) (hl' : r'.labels[j]? = some l') :
    r.labels[j]? = some l' ∨ l' = l := by
  unfold number at h
  split at h
  · simp only [Except.ok.injEq, Prod.mk.injEq] at h
    obtain ⟨-, rfl⟩ := h
    exact Or.inl hl'
  · dsimp only at h
    split at h
    · simp only [Except.ok.injEq, Prod.mk.injEq] at h
      obtain ⟨-, rfl⟩ := h
      rw [push, Array.getElem?_push] at hl'
      split at hl'
      · exact Or.inr (Option.some.inj hl').symm
      · exact Or.inl hl'
    · cases h

/-- A label gets no number only where it is new and all numbers are given out. -/
theorem number_eq_error {r : Registry} {l : ItemSet} {e : AutomatonError}
    (h : r.number l = .error e) :
    e = .tooManyStates ∧ r.labels.size = maxStates ∧ ∀ i : StateId, r.labels[i]? ≠ some l := by
  unfold number at h
  split at h
  · cases h
  · next hfresh =>
    dsimp only at h
    split at h
    · cases h
    · next hfull =>
      refine ⟨(Except.error.inj h).symm, Nat.le_antisymm r.size_le (Nat.not_lt.mp hfull), ?_⟩
      intro i hi
      rw [(r.numbers_iff l i).mpr hi] at hfresh
      cases hfresh

/-- A label has one number. -/
theorem number_unique (r : Registry) {l : ItemSet} {i j : StateId} (hi : r.labels[i]? = some l)
    (hj : r.labels[j]? = some l) : i = j := by
  have hnumber := (r.numbers_iff l i).mpr hi
  rw [(r.numbers_iff l j).mpr hj] at hnumber
  exact (Option.some.inj hnumber).symm

/-! ## One row -/

/-- The row has the transitions of a label on awaited symbols, to where `goto` leads. -/
structure Serves (g : Grammar) (r : Registry) (label : ItemSet) (row : Row StateId) : Prop where
  sound : ∀ x j, row.find? x = some j →
    x ∈ awaitedSymbols g label ∧ r.labels[j]? = some (goto g label x)
  complete : ∀ x ∈ awaitedSymbols g label, ∃ j, row.find? x = some j

theorem Serves.extend {r r' : Registry} {label : ItemSet} {row : Row StateId}
    (h : r.Serves g label row) (hr : r.Extends r') : r'.Serves g label row where
  sound x j hx := ⟨(h.sound x j hx).1, hr _ _ (h.sound x j hx).2⟩
  complete := h.complete

end Registry

/-- What the transitions on a list of symbols add to a row: the old transitions stay, and there are
those of the list and no others besides. The registry gets no labels but those that they lead to. -/
structure Connects (g : Grammar) (label : ItemSet) (r : Registry) (row : Row StateId)
    (xs : List SymbolId) (r' : Registry) (row' : Row StateId) : Prop where
  extend : r.Extends r'
  kept : ∀ x j, row.find? x = some j → row'.find? x = some j
  complete : ∀ x ∈ xs, ∃ j, row'.find? x = some j
  sound : ∀ x j, row'.find? x = some j →
    row.find? x = some j ∨ x ∈ xs ∧ r'.labels[j]? = some (goto g label x)
  origin : ∀ (i : StateId) (l : ItemSet), r'.labels[i]? = some l →
    r.labels[i]? = some l ∨ ∃ x ∈ xs, l = goto g label x
  distinct : row.symbols.Nodup → row'.symbols.Nodup

section

variable {label : ItemSet} {r r₁ r' : Registry} {row row₁ row' : Row StateId} {x : SymbolId}
  {xs : List SymbolId}

/-- What a row takes from its first symbol and what it takes from the others. -/
theorem Connects.origin_cons {next : StateId} (hnumber : r.number (goto g label x) = .ok (next, r₁))
    (h : Connects g label r₁ row xs r' row') {i : StateId} {l : ItemSet}
    (hl : r'.labels[i]? = some l) :
    r.labels[i]? = some l ∨ ∃ y ∈ x :: xs, l = goto g label y := by
  rcases h.origin i l hl with hl | ⟨y, hy, rfl⟩
  · rcases Registry.number_origin hnumber hl with hl | rfl
    · exact Or.inl hl
    · exact Or.inr ⟨x, List.mem_cons_self, rfl⟩
  · exact Or.inr ⟨y, List.mem_cons_of_mem _ hy, rfl⟩

/-- A symbol that has its transition already adds nothing. -/
theorem Connects.of_find? {next old : StateId}
    (hnumber : r.number (goto g label x) = .ok (next, r₁)) (hold : row.find? x = some old)
    (h : Connects g label r₁ row xs r' row') : Connects g label r row (x :: xs) r' row' where
  extend := (Registry.number_spec hnumber).1.trans h.extend
  kept := h.kept
  origin _ _ := h.origin_cons hnumber
  distinct := h.distinct
  complete y hy := by
    rcases List.mem_cons.mp hy with rfl | hy
    · exact ⟨old, h.kept _ _ hold⟩
    · exact h.complete y hy
  sound y j hy := by
    rcases h.sound y j hy with hy | ⟨hmem, hlabel⟩
    · exact Or.inl hy
    · exact Or.inr ⟨List.mem_cons_of_mem _ hmem, hlabel⟩

/-- A free symbol gets its transition first. -/
theorem Connects.of_enter {next : StateId}
    (hnumber : r.number (goto g label x) = .ok (next, r₁)) (henter : row.enter x next = .ok row₁)
    (h : Connects g label r₁ row₁ xs r' row') : Connects g label r row (x :: xs) r' row' := by
  have hfind := Row.find?_enter henter
  obtain ⟨extend, hlabel, -⟩ := Registry.number_spec hnumber
  refine ⟨extend.trans h.extend, fun y j hy => ?_, fun y hy => ?_, fun y j hy => ?_,
    fun _ _ => h.origin_cons hnumber, fun hrow => h.distinct (Row.nodup_symbols_of_enter henter hrow)⟩
  · refine h.kept y j ?_
    rw [hfind, if_neg]
    · exact hy
    · rintro rfl
      rw [Row.find?_of_enter_eq_ok henter] at hy
      cases hy
  · rcases List.mem_cons.mp hy with rfl | hy
    · exact ⟨next, h.kept _ _ (by rw [hfind, if_pos rfl])⟩
    · exact h.complete y hy
  · rcases h.sound y j hy with hy | ⟨hmem, hlab⟩
    · rw [hfind] at hy
      split at hy
      · next heq =>
        subst heq
        obtain rfl : next = j := Option.some.inj hy
        exact Or.inr ⟨List.mem_cons_self, h.extend _ _ hlabel⟩
      · exact Or.inl hy
    · exact Or.inr ⟨List.mem_cons_of_mem _ hmem, hlab⟩

theorem connects_of_connect {state : StateId}
    (h : connect g state label r row xs = .ok (r', row')) :
    Connects g label r row xs r' row' := by
  induction xs generalizing r row with
  | nil =>
      simp only [connect, Except.ok.injEq, Prod.mk.injEq] at h
      obtain ⟨rfl, rfl⟩ := h
      exact ⟨.refl r, fun _ _ => id, nofun, fun _ _ => Or.inl, fun _ _ => Or.inl, id⟩
  | cons x rest ih =>
      rw [connect] at h
      split at h
      · cases h
      next target hgoto =>
      split at h
      · cases h
      next next r₁ hnumber =>
      rw [eq_goto_of_goto? hgoto] at hnumber
      split at h
      · next old henter =>
        split at h
        · exact .of_find? hnumber (Row.find?_of_enter_eq_error henter) (ih h)
        · cases h
      · next row₁ henter => exact .of_enter hnumber henter (ih h)

end

/-! ## All rows -/

/-- Each finished row serves its label. -/
def RowsServe (g : Grammar) (r : Registry) (rows : Array (Row StateId)) : Prop :=
  ∀ (i : StateId) (row : Row StateId), rows[i]? = some row →
    ∃ label, r.labels[i]? = some label ∧ r.Serves g label row

/-- **Induction over the exploration.** What holds at first and stays with each new row holds when all
rows are finished. An exploration that fails does so at a row. -/
theorem explore_induction {motive : Registry → Array (Row StateId) → Prop}
    (step : ∀ (r : Registry) (rows : Array (Row StateId)) (label : ItemSet) (r' : Registry)
      (row : Row StateId), motive r rows → r.labels[rows.size]? = some label →
      connect g rows.size label r {} (awaitedSymbols g label).toList = .ok (r', row) →
      motive r' (rows.push row))
    {r : Registry} {rows : Array (Row StateId)} (start : motive r rows) :
    match explore g r rows with
    | .ok (r', rows') => motive r' rows' ∧ r'.labels.size ≤ rows'.size
    | .error e => ∃ r' rows' label, motive r' rows' ∧ r'.labels[rows'.size]? = some label ∧
        connect g rows'.size label r' {} (awaitedSymbols g label).toList = .error e := by
  induction r, rows using explore.induct g with
  | case1 r rows hlt label e herr =>
      rw [explore, dif_pos hlt]
      simp only
      rw [herr]
      exact ⟨r, rows, label, start, Array.getElem?_eq_getElem hlt, herr⟩
  | case2 r rows hlt label r₁ row hconnect ih =>
      rw [explore, dif_pos hlt]
      simp only
      rw [hconnect]
      exact ih (step r rows label r₁ row start (Array.getElem?_eq_getElem hlt) hconnect)
  | case3 r rows hge =>
      rw [explore, dif_neg hge]
      exact ⟨start, Nat.not_lt.mp hge⟩

theorem RowsServe.push {r r' : Registry} {rows : Array (Row StateId)} {label : ItemSet}
    {row : Row StateId} (hrows : RowsServe g r rows) (hlabel : r.labels[rows.size]? = some label)
    (h : Connects g label r {} (awaitedSymbols g label).toList r' row) :
    RowsServe g r' (rows.push row) := by
  intro i row' hi
  rw [Array.getElem?_push] at hi
  split at hi
  · next heq =>
    obtain rfl : row = row' := Option.some.inj hi
    subst heq
    refine ⟨label, h.extend _ _ hlabel, fun x j hx => ?_, h.complete⟩
    exact (h.sound x j hx).resolve_left nofun
  · obtain ⟨label', hlabel', hserves⟩ := hrows i row' hi
    exact ⟨label', h.extend _ _ hlabel', hserves.extend h.extend⟩

theorem explore_spec {r r' : Registry} {rows rows' : Array (Row StateId)}
    (hrows : RowsServe g r rows) (h : explore g r rows = .ok (r', rows')) :
    r.Extends r' ∧ RowsServe g r' rows' ∧ r'.labels.size ≤ rows'.size := by
  have hfinished := explore_induction
    (motive := fun r₁ rows₁ => r.Extends r₁ ∧ RowsServe g r₁ rows₁)
    (by
      rintro r₁ rows₁ label r₂ row ⟨hextend, hrows₁⟩ hlabel hconnect
      have hconnects := connects_of_connect hconnect
      exact ⟨hextend.trans hconnects.extend, hrows₁.push hlabel hconnects⟩)
    ⟨.refl r, hrows⟩
  rw [h] at hfinished
  exact ⟨hfinished.1.1, hfinished.1.2, hfinished.2⟩

/-! ## The whole automaton -/

namespace Automaton

/-- The label of a state. -/
def label? (a : Automaton) (i : StateId) : Option ItemSet := (a.state? i).map State.label

/-- The automaton starts from its start label and has, between its labels, the transitions of `goto`
on the symbols that they await. -/
structure Serves (g : Grammar) (a : Automaton) : Prop where
  start : a.label? 0 = some (startLabel g)
  sound : ∀ i x j, a.transition? i x = some j →
    ∃ label, a.label? i = some label ∧ x ∈ awaitedSymbols g label ∧
      a.label? j = some (goto g label x)
  complete : ∀ i label x, a.label? i = some label → x ∈ awaitedSymbols g label →
    ∃ j, a.transition? i x = some j

section

variable {labels : Array ItemSet} {rows : Array (Row StateId)}

theorem state?_zipWith (i : StateId) : (⟨labels.zipWith State.mk rows⟩ : Automaton).state? i =
    labels[i]?.bind fun label => rows[i]?.map fun row => ⟨label, row⟩ := by
  rw [state?, Array.getElem?_zipWith]
  cases labels[i]? with
  | none => rfl
  | some label => cases rows[i]? <;> rfl

theorem label?_zipWith (hsize : labels.size ≤ rows.size) (i : StateId) :
    (⟨labels.zipWith State.mk rows⟩ : Automaton).label? i = labels[i]? := by
  rw [label?, state?_zipWith]
  cases hi : labels[i]? with
  | none => rfl
  | some label =>
      have hlt := Nat.lt_of_lt_of_le (Array.getElem?_eq_some_iff.mp hi).1 hsize
      rw [Array.getElem?_eq_getElem hlt]
      rfl

theorem transition?_zipWith_eq_some_iff {i j : StateId} {x : SymbolId} :
    (⟨labels.zipWith State.mk rows⟩ : Automaton).transition? i x = some j ↔
      ∃ label row, labels[i]? = some label ∧ rows[i]? = some row ∧ row.find? x = some j := by
  rw [transition?, state?_zipWith]
  cases labels[i]? with
  | none => simp
  | some label => cases rows[i]? <;> simp

end

theorem rowsServe_empty (r : Registry) : RowsServe g r #[] := by
  intro i row hi
  simp at hi

/-- What a construction that succeeds has done. -/
theorem exists_explore_of_build {a : Automaton} (h : build g = .ok a) :
    ∃ r₀ r rows, ({} : Registry).number (startLabel g) = .ok (0, r₀) ∧
      explore g r₀ #[] = .ok (r, rows) ∧ a = ⟨r.labels.zipWith State.mk rows⟩ := by
  unfold build at h
  split at h
  · cases h
  next i₀ r₀ hnumber =>
  split at h
  · cases h
  next r rows hexplore =>
  obtain ⟨-, -, hi₀⟩ := Registry.number_spec hnumber
  obtain rfl : i₀ = 0 := Nat.le_zero.mp hi₀
  exact ⟨r₀, r, rows, hnumber, hexplore, (Except.ok.inj h).symm⟩

theorem serves_of_build {a : Automaton} (h : build g = .ok a) : a.Serves g := by
  obtain ⟨r₀, r, rows, hnumber, hexplore, rfl⟩ := exists_explore_of_build h
  have hlabel₀ := (Registry.number_spec hnumber).2.1
  obtain ⟨hextend, hrows, hsize⟩ := explore_spec (rowsServe_empty r₀) hexplore
  constructor
  · rw [label?_zipWith hsize]
    exact hextend _ _ hlabel₀
  · intro i x j hx
    obtain ⟨label, row, hlabel, hrow, hfind⟩ := transition?_zipWith_eq_some_iff.mp hx
    obtain ⟨label', hlabel', hserves⟩ := hrows i row hrow
    obtain rfl : label = label' := Option.some.inj (hlabel.symm.trans hlabel')
    obtain ⟨hawaited, htarget⟩ := hserves.sound x j hfind
    exact ⟨label, by rw [label?_zipWith hsize, hlabel], hawaited,
      by rw [label?_zipWith hsize, htarget]⟩
  · intro i label x hlabel hx
    rw [label?_zipWith hsize] at hlabel
    have hlt := Nat.lt_of_lt_of_le (Array.getElem?_eq_some_iff.mp hlabel).1 hsize
    have hrow := Array.getElem?_eq_getElem hlt
    obtain ⟨label', hlabel', hserves⟩ := hrows i _ hrow
    obtain rfl : label = label' := Option.some.inj (hlabel.symm.trans hlabel')
    obtain ⟨j, hj⟩ := hserves.complete x hx
    exact ⟨j, transition?_zipWith_eq_some_iff.mpr ⟨label, _, hlabel, hrow, hj⟩⟩

/-- No state has two transitions on one symbol. -/
theorem nodup_symbols_of_build {a : Automaton} (h : build g = .ok a) {i : StateId} {s : State}
    (hs : a.state? i = some s) : s.transitions.symbols.Nodup := by
  obtain ⟨r₀, r, rows, -, hexplore, rfl⟩ := exists_explore_of_build h
  have hempty : ∀ row ∈ (#[] : Array (Row StateId)), row.symbols.Nodup := by
    intro row hrow
    exact absurd hrow (Array.not_mem_empty row)
  have hfinished := explore_induction (g := g) (r := r₀)
    (motive := fun _ rows => ∀ row ∈ rows, row.symbols.Nodup)
    (by
      intro r₁ rows₁ label r₂ row hrows hlabel hconnect row' hrow'
      rcases Array.mem_push.mp hrow' with hrow' | rfl
      · exact hrows row' hrow'
      · exact (connects_of_connect hconnect).distinct List.nodup_nil)
    hempty
  rw [hexplore] at hfinished
  rw [state?_zipWith] at hs
  obtain ⟨label, -, hs⟩ := Option.bind_eq_some_iff.mp hs
  obtain ⟨row, hrow, rfl⟩ := Option.map_eq_some_iff.mp hs
  exact hfinished.1 row (Array.mem_of_getElem? hrow)

end Automaton

end ShiftReduce
