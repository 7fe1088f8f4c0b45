import ShiftReduce.Symbol

/-!
# Rows

The row of a table for one state: what is entered for each symbol, in the order of entry. A place
is filled once, and an attempt to fill it again comes back with what is there.
-/

namespace ShiftReduce

structure Row (α : Type) where
  entries : Array (SymbolId × α) := #[]
deriving DecidableEq, Repr

namespace Row

variable {α : Type}

instance : Inhabited (Row α) := ⟨{}⟩

/-- What is entered for a symbol. -/
def find? (row : Row α) (x : SymbolId) : Option α :=
  (row.entries.find? fun entry => entry.1 = x).map Prod.snd

/-- The symbols that have an entry, in the order of entry. -/
def symbols (row : Row α) : List SymbolId := row.entries.toList.map Prod.fst

def size (row : Row α) : Nat := row.entries.size

/-- Fill the place of a symbol, or find it taken. -/
def enter (row : Row α) (x : SymbolId) (a : α) : Except α (Row α) :=
  match row.find? x with
  | some old => .error old
  | none => .ok ⟨row.entries.push (x, a)⟩

theorem find?_empty (x : SymbolId) : (⟨#[]⟩ : Row α).find? x = none := rfl

theorem find?_enter {row row' : Row α} {x : SymbolId} {a : α} (h : row.enter x a = .ok row')
    (y : SymbolId) : row'.find? y = if y = x then some a else row.find? y := by
  unfold enter at h
  split at h
  · simp at h
  · next free =>
    injection h with h
    subst h
    unfold find? at free ⊢
    rw [Array.find?_push]
    by_cases hy : y = x
    · subst hy
      rw [Option.map_eq_none_iff] at free
      simp [free]
    · simp [hy, Ne.symm hy]

/-- Only a free place is filled. -/
theorem find?_of_enter_eq_ok {row row' : Row α} {x : SymbolId} {a : α}
    (h : row.enter x a = .ok row') : row.find? x = none := by
  unfold enter at h
  split at h
  · cases h
  · assumption

/-- No place is filled twice. -/
theorem nodup_symbols_of_enter {row row' : Row α} {x : SymbolId} {a : α}
    (h : row.enter x a = .ok row') (hrow : row.symbols.Nodup) : row'.symbols.Nodup := by
  have free := find?_of_enter_eq_ok h
  have fresh : x ∉ row.symbols := by
    intro hx
    obtain ⟨entry, hentry, rfl⟩ := List.mem_map.1 hx
    rw [find?, Option.map_eq_none_iff, Array.find?_eq_none] at free
    exact free entry (Array.mem_toList_iff.1 hentry) (decide_eq_true rfl)
  unfold enter at h
  split at h
  · cases h
  · injection h with h
    subst h
    rw [symbols, Array.toList_push, List.map_append, List.nodup_append]
    refine ⟨hrow, List.pairwise_singleton _ _, fun y hy z hz => ?_⟩
    rw [List.map_singleton, List.mem_singleton] at hz
    subst hz
    exact fun hyx => fresh (hyx ▸ hy)

/-- A place that is taken comes back with what is there. -/
theorem find?_of_enter_eq_error {row : Row α} {x : SymbolId} {a old : α}
    (h : row.enter x a = .error old) : row.find? x = some old := by
  unfold enter at h
  split at h
  · next found => rw [found, Except.error.inj h]
  · cases h

end Row

end ShiftReduce
