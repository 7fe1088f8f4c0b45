import Mathlib.Data.Seq.Defs
import ShiftReduce.PushBack

/-!
# What sources give

A source is known by its answers, call after call. What it gives is a sequence of items, finite or not
(`Source.items`), in which the calls that bring nothing are left out: a source need not be at its end
when it brings nothing. One that is (`Source.Fused`) brings nothing ever after. A source that can be read
as a list gives this list and then nothing for ever (`Source.gives_of_view`).
-/

namespace ShiftReduce.Source

open Stream' (Seq)

variable {σ α : Type} [Source σ α]

/-! ## Answers -/

/-- The source after some calls. -/
def after : Nat → σ → σ
  | 0, s => s
  | n + 1, s => after n (pull s).2

/-- The answer to a call, the next one being call 0. -/
def answer (n : Nat) (s : σ) : Option α := (pull (after n s)).1

theorem after_add (n m : Nat) (s : σ) : after (n + m) s = after m (after n s) := by
  induction n generalizing s with
  | zero => rw [Nat.zero_add, after]
  | succ n ih => rw [Nat.succ_add, after, after, ih]

/-- A source that brings nothing once brings nothing for ever. -/
def Fused (s : σ) : Prop := ∀ n, answer n s = none → answer (n + 1) s = none

theorem Fused.pull {s : σ} (h : Fused s) : Fused (pull s).2 := fun n => h (n + 1)

theorem Fused.answer_eq_none {s : σ} (h : Fused s) (done : (Source.pull s).1 = none) (n : Nat) :
    answer n s = none := by
  induction n with
  | zero => exact done
  | succ n ih => exact h n ih

/-! ## Items -/

open Classical in
/-- The next item, however many calls it takes, and the source behind it. -/
noncomputable def nextItem? (s : σ) : Option (α × σ) :=
  if h : ∃ n, (answer n s).isSome then
    (answer (Nat.find h) s).map (·, after (Nat.find h + 1) s)
  else none

/-- All items that a source gives, in their order. -/
noncomputable def items (s : σ) : Seq α := Seq.corec nextItem? s

theorem nextItem?_of_pull {s s' : σ} {a : α} (h : pull s = (some a, s')) :
    nextItem? s = some (a, s') := by
  have hsome : (answer 0 s).isSome := by rw [answer, after, h, Option.isSome_some]
  have hnow : ∃ n, (answer n s).isSome := ⟨0, hsome⟩
  rw [nextItem?, dif_pos hnow, (Nat.find_eq_zero hnow).mpr hsome, answer, after, after, after, h,
    Option.map_some]

/-- A call that brings nothing leaves the next item where it is. -/
theorem nextItem?_of_pull_none {s s' : σ} (h : pull s = (none, s')) :
    nextItem? s = nextItem? s' := by
  -- behind the call in vain each call to `s` is a call to `s'`
  have hzero : ¬ (answer 0 s).isSome := by rw [answer, after, h]; exact Bool.false_ne_true
  have hanswer : ∀ n, answer (n + 1) s = answer n s' := by
    intro n
    rw [answer, after, h, answer]
  have hafter : ∀ n, after (n + 1) s = after n s' := by
    intro n
    rw [after, h]
  by_cases hlater : ∃ n, (answer n s').isSome
  · have hshift : ∃ n, (answer (n + 1) s).isSome := by simpa only [hanswer] using hlater
    have hnow : ∃ n, (answer n s).isSome := hshift.imp' (· + 1) fun _ => id
    have hfind : Nat.find hnow = Nat.find hlater + 1 := by
      rw [Nat.find_comp_succ hnow hshift hzero]
      congr 2
      funext n
      rw [hanswer]
    rw [nextItem?, nextItem?, dif_pos hnow, dif_pos hlater, hfind, hanswer, hafter]
  · have hnow : ¬ ∃ n, (answer n s).isSome := by
      rintro ⟨_ | n, hn⟩
      · exact hzero hn
      · exact hlater ⟨n, hanswer n ▸ hn⟩
    rw [nextItem?, nextItem?, dif_neg hnow, dif_neg hlater]

theorem items_of_pull {s s' : σ} {a : α} (h : pull s = (some a, s')) :
    items s = Seq.cons a (items s') :=
  Seq.corec_cons (nextItem?_of_pull h)

/-- A call that brings nothing takes no item away. -/
theorem items_of_pull_none {s s' : σ} (h : pull s = (none, s')) : items s = items s' := by
  have hnext := nextItem?_of_pull_none h
  cases hitem : nextItem? s' with
  | none =>
      rw [items, items, Seq.corec_nil _ _ hitem, Seq.corec_nil _ _ (hnext.trans hitem)]
  | some item =>
      rw [items, items, Seq.corec_cons hitem, Seq.corec_cons (hnext.trans hitem)]

theorem Fused.items_eq_nil {s : σ} (h : Fused s) (done : (Source.pull s).1 = none) :
    items s = Seq.nil := by
  refine Seq.corec_nil _ _ (dif_neg ?_)
  rintro ⟨n, hn⟩
  rw [h.answer_eq_none done] at hn
  exact Bool.false_ne_true hn

/-! ## Lists of items -/

/-- The source gives the items of a list, each once and in their order, and then nothing for ever. -/
def Gives (s : σ) (l : List α) : Prop := ∀ n, answer n s = l[n]?

/-- There is one list that a source gives. -/
theorem Gives.unique {s : σ} {l l' : List α} (h : Gives s l) (h' : Gives s l') : l = l' :=
  List.ext_getElem? fun n => (h n).symm.trans (h' n)

/-- What is not given yet is given later. -/
theorem Gives.after {s : σ} {l : List α} (h : Gives s l) (n : Nat) : Gives (after n s) (l.drop n) := by
  intro m
  rw [answer, ← after_add, List.getElem?_drop]
  exact h (n + m)

/-- A source that can be read as a list gives it, if each call takes the first item of what is read. -/
theorem gives_of_view {view : σ → List α} (first : ∀ s, (pull s).1 = (view s).head?)
    (rest : ∀ s, view (pull s).2 = (view s).tail) (s : σ) : Gives s (view s) := by
  intro n
  induction n generalizing s with
  | zero => rw [answer, Source.after, first, List.head?_eq_getElem?]
  | succ n ih =>
      have hlater := ih (pull s).2
      rw [rest, List.getElem?_tail] at hlater
      exact hlater

theorem Gives.fused {s : σ} {l : List α} (h : Gives s l) : Fused s := by
  intro n hn
  rw [h n, List.getElem?_eq_none_iff] at hn
  rw [h (n + 1), List.getElem?_eq_none_iff]
  exact Nat.le_succ_of_le hn

/-- The items of a source that gives a list are those of the list. -/
theorem Gives.items_eq {s : σ} {l : List α} (h : Gives s l) : items s = Seq.ofList l := by
  induction l generalizing s with
  | nil =>
      rw [Seq.ofList_nil]
      exact h.fused.items_eq_nil (h 0)
  | cons a l ih =>
      have hpull : pull s = (some a, (pull s).2) := Prod.ext (h 0) rfl
      have hrest : Gives (pull s).2 l := h.after 1
      rw [items_of_pull hpull, ih hrest, Seq.ofList_cons]

/-- A list gives its items. -/
theorem gives_list (l : List α) : Gives l l := by
  have first : ∀ l : List α, (pull l).1 = (id l).head? := by
    intro l
    cases l <;> rfl
  have rest : ∀ l : List α, id (pull l).2 = (id l).tail := by
    intro l
    cases l <;> rfl
  exact gives_of_view first rest l

end ShiftReduce.Source
