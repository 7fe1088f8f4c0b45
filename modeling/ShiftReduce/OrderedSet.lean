/-!
# Ordered sets

A finite set, kept as the strictly ascending list of its elements. The list is the view: an
element belongs to the set when it is in the list, and two sets with the same elements are one
and the same list (`OrderedSet.ext`). So a set can be compared with another, can be the key of a
search tree, and is written out in ascending order as it stands.
-/

namespace ShiftReduce

/-- A finite set as the strictly ascending list of its elements. -/
structure OrderedSet (α : Type) [Ord α] where
  toList : List α
  ascending : toList.Pairwise fun a b => compare a b = .lt

namespace OrderedSet

variable {α : Type} [Ord α]

instance : Membership α (OrderedSet α) := ⟨fun s a => a ∈ s.toList⟩

theorem mem_toList {s : OrderedSet α} {a : α} : a ∈ s.toList ↔ a ∈ s := Iff.rfl

instance [DecidableEq α] (a : α) (s : OrderedSet α) : Decidable (a ∈ s) :=
  inferInstanceAs (Decidable (a ∈ s.toList))

instance [DecidableEq α] : DecidableEq (OrderedSet α) := fun s t =>
  decidable_of_iff (s.toList = t.toList) (by cases s; cases t; simp)

/-- The set without elements. -/
def empty : OrderedSet α := ⟨[], .nil⟩

instance : EmptyCollection (OrderedSet α) := ⟨empty⟩
instance : Inhabited (OrderedSet α) := ⟨∅⟩

theorem toList_empty : (∅ : OrderedSet α).toList = [] := rfl

theorem not_mem_empty (a : α) : a ∉ (∅ : OrderedSet α) := by
  simp [← mem_toList, toList_empty]

/-- The set of one element. -/
def singleton (a : α) : OrderedSet α := ⟨[a], List.pairwise_singleton _ _⟩

theorem mem_singleton {a b : α} : a ∈ singleton b ↔ a = b := by
  simp [← mem_toList, singleton]

/-- The number of elements. -/
def size (s : OrderedSet α) : Nat := s.toList.length

/-- Whether the set has no elements. -/
def isEmpty (s : OrderedSet α) : Bool := s.toList.isEmpty

/-! ## Union -/

/-- Two ascending lists as one ascending list; an element of both is taken once. -/
def mergeLists : List α → List α → List α
  | [], ys => ys
  | x :: xs, [] => x :: xs
  | x :: xs, y :: ys =>
    match compare x y with
    | .lt => x :: mergeLists xs (y :: ys)
    | .eq => x :: mergeLists xs ys
    | .gt => y :: mergeLists (x :: xs) ys
termination_by xs ys => xs.length + ys.length

variable [Std.TransOrd α] [Std.LawfulEqOrd α]

omit [Std.TransOrd α] in
theorem mem_mergeLists {xs ys : List α} {a : α} :
    a ∈ mergeLists xs ys ↔ a ∈ xs ∨ a ∈ ys := by
  fun_induction mergeLists xs ys with
  | case1 ys => simp
  | case2 x xs => simp
  | case3 x xs y ys h ih => simp [ih, or_assoc]
  | case4 x xs y ys h ih =>
    have : x = y := Std.LawfulEqOrd.eq_of_compare h
    subst this
    simp only [List.mem_cons, ih]
    grind
  | case5 x xs y ys h ih =>
    simp only [List.mem_cons, ih]
    grind

theorem pairwise_mergeLists {xs ys : List α}
    (hx : xs.Pairwise fun a b => compare a b = .lt)
    (hy : ys.Pairwise fun a b => compare a b = .lt) :
    (mergeLists xs ys).Pairwise fun a b => compare a b = .lt := by
  fun_induction mergeLists xs ys with
  | case1 ys => exact hy
  | case2 x xs => exact hx
  | case3 x xs y ys h ih =>
    rw [List.pairwise_cons] at hx
    refine List.pairwise_cons.2 ⟨fun b hb => ?_, ih hx.2 hy⟩
    rcases mem_mergeLists.1 hb with hb | hb
    · exact hx.1 b hb
    · rcases List.mem_cons.1 hb with rfl | hb
      · exact h
      · exact Std.TransCmp.lt_trans h ((List.pairwise_cons.1 hy).1 b hb)
  | case4 x xs y ys h ih =>
    have : x = y := Std.LawfulEqOrd.eq_of_compare h
    subst this
    rw [List.pairwise_cons] at hx hy
    refine List.pairwise_cons.2 ⟨fun b hb => ?_, ih hx.2 hy.2⟩
    rcases mem_mergeLists.1 hb with hb | hb
    · exact hx.1 b hb
    · exact hy.1 b hb
  | case5 x xs y ys h ih =>
    have hyx : compare y x = .lt := Std.OrientedCmp.gt_iff_lt.1 h
    rw [List.pairwise_cons] at hy
    refine List.pairwise_cons.2 ⟨fun b hb => ?_, ih hx hy.2⟩
    rcases mem_mergeLists.1 hb with hb | hb
    · rcases List.mem_cons.1 hb with rfl | hb
      · exact hyx
      · exact Std.TransCmp.lt_trans hyx ((List.pairwise_cons.1 hx).1 b hb)
    · exact hy.1 b hb

/-- The elements of either set. -/
def union (s t : OrderedSet α) : OrderedSet α :=
  ⟨mergeLists s.toList t.toList, pairwise_mergeLists s.ascending t.ascending⟩

instance : Union (OrderedSet α) := ⟨union⟩

theorem mem_union {s t : OrderedSet α} {a : α} : a ∈ s ∪ t ↔ a ∈ s ∨ a ∈ t :=
  mem_mergeLists

/-- The set with one more element. -/
def insert (s : OrderedSet α) (a : α) : OrderedSet α := singleton a ∪ s

theorem mem_insert {s : OrderedSet α} {a b : α} : b ∈ s.insert a ↔ b = a ∨ b ∈ s := by
  simp [insert, mem_union, mem_singleton]

/-- The elements of a list, whatever their order and number. -/
def ofList (xs : List α) : OrderedSet α := xs.foldr (fun a s => s.insert a) ∅

theorem mem_ofList {xs : List α} {a : α} : a ∈ ofList xs ↔ a ∈ xs := by
  induction xs with
  | nil => simpa [ofList] using not_mem_empty a
  | cons x xs ih => simpa [ofList, mem_insert] using or_congr_right ih

/-! ## Equality -/

omit [Std.LawfulEqOrd α] in
theorem pairwise_eq_of_mem_iff {xs ys : List α}
    (hx : xs.Pairwise fun a b => compare a b = .lt)
    (hy : ys.Pairwise fun a b => compare a b = .lt)
    (h : ∀ a, a ∈ xs ↔ a ∈ ys) : xs = ys := by
  have irrefl : ∀ a b : α, compare a b = .lt → compare b a = .lt → False := fun a b h₁ h₂ => by
    have := Std.TransCmp.lt_trans h₁ h₂
    simp [Std.ReflCmp.compare_self] at this
  induction xs generalizing ys with
  | nil =>
    cases ys with
    | nil => rfl
    | cons y ys => exact absurd ((h y).2 (by simp)) (by simp)
  | cons x xs ih =>
    cases ys with
    | nil => exact absurd ((h x).1 (by simp)) (by simp)
    | cons y ys =>
      rw [List.pairwise_cons] at hx hy
      have hxy : x = y := by
        rcases List.mem_cons.1 ((h x).1 (by simp)) with e | hx'
        · exact e
        · rcases List.mem_cons.1 ((h y).2 (by simp)) with e | hy'
          · exact e.symm
          · exact (irrefl _ _ (hx.1 y hy') (hy.1 x hx')).elim
      subst hxy
      congr 1
      refine ih hx.2 hy.2 fun a => ⟨fun ha => ?_, fun ha => ?_⟩
      · rcases List.mem_cons.1 ((h a).1 (List.mem_cons_of_mem _ ha)) with rfl | ha'
        · exact (irrefl _ _ (hx.1 a ha) (hx.1 a ha)).elim
        · exact ha'
      · rcases List.mem_cons.1 ((h a).2 (List.mem_cons_of_mem _ ha)) with rfl | ha'
        · exact (irrefl _ _ (hy.1 a ha) (hy.1 a ha)).elim
        · exact ha'

omit [Std.LawfulEqOrd α] in
/-- Sets with the same elements are equal. -/
theorem ext {s t : OrderedSet α} (h : ∀ a, a ∈ s ↔ a ∈ t) : s = t := by
  have := pairwise_eq_of_mem_iff s.ascending t.ascending h
  cases s; cases t; simp_all

omit [Std.LawfulEqOrd α] in
/-- The list names no element twice. -/
theorem nodup_toList (s : OrderedSet α) : s.toList.Nodup := by
  refine s.ascending.imp ?_
  rintro a b hlt rfl
  simp [Std.ReflCmp.compare_self] at hlt

/-! ## Order

Sets are ordered as their lists are, letter by letter. -/

instance : Ord (OrderedSet α) := ⟨fun s t => compare s.toList t.toList⟩

instance : Std.TransOrd (OrderedSet α) where
  eq_swap {s t} := Std.OrientedOrd.eq_swap (a := s.toList) (b := t.toList)
  isLE_trans {s t u} h₁ h₂ :=
    Std.TransOrd.isLE_trans (a := s.toList) (b := t.toList) (c := u.toList) h₁ h₂

instance : Std.LawfulEqOrd (OrderedSet α) where
  compare_self {s} := Std.ReflOrd.compare_self (a := s.toList)
  eq_of_compare {s t} h := by
    have : s.toList = t.toList := Std.LawfulEqOrd.eq_of_compare h
    cases s; cases t; simp_all

end OrderedSet

end ShiftReduce
