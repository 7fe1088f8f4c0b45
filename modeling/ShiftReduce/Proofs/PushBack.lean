import ShiftReduce.Proofs.Source

/-!
# A push-back stream is a list

Behind its buffer a push-back stream is a plain list, finite or not, of what was put back and then of the
items of its source (`PushBack.items`). A call that is answered is answered as by the list, of which `peek`
reads the first item, `next` takes it away and `pushBack` puts one before it (`PushBack.Call.onList`). A call
that brings nothing leaves the list as it is. If the source is at its end once it brings nothing, the list is
empty then, and no call tells the two apart.

Whether an item that was looked at waits in the buffer or in the source is not seen: a `peek` put in
somewhere changes none of the other answers.
-/

namespace ShiftReduce.PushBack

open Stream' (Seq)

variable {σ α : Type}

/-! ## Calls -/

inductive Call (α : Type) where
  | peek
  | next
  | pushBack (a : α)
deriving DecidableEq, Repr

/-- The answer to a call. What is put back is not answered by an item. -/
inductive Reply (α : Type) where
  | item (a? : Option α)
  | done
deriving DecidableEq, Repr

def Reply.isNothing : Reply α → Bool
  | .item none => true
  | _ => false

def call [Source σ α] (s : PushBack σ α) : Call α → Reply α × PushBack σ α
  | .peek => (.item s.peek.1, s.peek.2)
  | .next => (.item s.next.1, s.next.2)
  | .pushBack a => (.done, s.pushBack a)

/-- The same call to a plain list. -/
def Call.onList (l : Seq α) : Call α → Reply α × Seq α
  | .peek => (.item l.head, l)
  | .next => (.item l.head, l.tail)
  | .pushBack a => (.done, Seq.cons a l)

/-- The replies to calls that are made one after the other. -/
def replies {μ : Type} (call : μ → Call α → Reply α × μ) : μ → List (Call α) → List (Reply α)
  | _, [] => []
  | m, c :: calls => (call m c).1 :: replies call (call m c).2 calls

/-- The calls that bring something, each with its reply. -/
def answered (calls : List (Call α)) (replies : List (Reply α)) : List (Call α × Reply α) :=
  (calls.zip replies).filter fun x => !x.2.isNothing

/-! ## One call -/

section

variable [Source σ α] (s : PushBack σ α)

/-- What the stream has still to give. -/
noncomputable def items : Seq α := s.pending.foldr Seq.cons (Source.items s.source)

/-- What can be read of a stream: its first item, which `next` takes away and `peek` does not, or nothing,
where the buffer is empty and the source brings nothing. -/
inductive Reads : Prop
  | item {a} (peeked : s.peek.1 = some a) (taken : s.next.1 = some a)
      (kept : s.peek.2.items = s.items) (rest : s.items = Seq.cons a s.next.2.items)
  | nothing {source} (pending : s.pending = []) (pulled : Source.pull s.source = (none, source))
      (peeked : s.peek = (none, ⟨source, []⟩)) (taken : s.next = (none, ⟨source, []⟩))

theorem reads : s.Reads := by
  obtain ⟨source, pending⟩ := s
  rcases pending with _ | ⟨a, rest⟩
  · rcases hpull : Source.pull source with ⟨_ | a, source'⟩
    · exact .nothing rfl hpull (by rw [peek, hpull]) (by rw [next, hpull])
    · have hitems := Source.items_of_pull hpull
      apply Reads.item (a := a)
      · rw [peek, hpull]
      · rw [next, hpull]
      · rw [peek, hpull]
        exact hitems.symm
      · rw [next, hpull]
        exact hitems
  · exact .item rfl rfl rfl rfl

variable {s}

/-- **A call that brings something** is answered as by the list, and leaves what the list keeps. -/
theorem onList_items {c : Call α} (h : (s.call c).1.isNothing = false) :
    c.onList s.items = ((s.call c).1, (s.call c).2.items) := by
  cases c with
  | pushBack a => rfl
  | peek =>
      cases s.reads with
      | item peeked taken kept rest => rw [Call.onList, call, peeked, kept, rest, Seq.head_cons]
      | nothing pending pulled peeked taken =>
          rw [call, peeked] at h
          cases h
  | next =>
      cases s.reads with
      | item peeked taken kept rest =>
          rw [Call.onList, call, taken, rest, Seq.head_cons, Seq.tail_cons]
      | nothing pending pulled peeked taken =>
          rw [call, taken] at h
          cases h

/-- A call that brings nothing leaves a source that has been asked in vain. -/
theorem exists_source_of_isNothing {c : Call α} (h : (s.call c).1.isNothing = true) :
    (c = .peek ∨ c = .next) ∧ s.pending = [] ∧
      ∃ source, Source.pull s.source = (none, source) ∧ s.call c = (.item none, ⟨source, []⟩) := by
  cases c with
  | pushBack a => cases h
  | peek =>
      cases s.reads with
      | item peeked taken kept rest =>
          rw [call, peeked] at h
          cases h
      | nothing pending pulled peeked taken =>
          exact ⟨Or.inl rfl, pending, _, pulled, by rw [call, peeked]⟩
  | next =>
      cases s.reads with
      | item peeked taken kept rest =>
          rw [call, taken] at h
          cases h
      | nothing pending pulled peeked taken =>
          exact ⟨Or.inr rfl, pending, _, pulled, by rw [call, taken]⟩

/-- A call that brings nothing loses nothing. -/
theorem items_call_of_isNothing {c : Call α} (h : (s.call c).1.isNothing = true) :
    (s.call c).2.items = s.items := by
  obtain ⟨-, pending, source, pulled, hcall⟩ := exists_source_of_isNothing h
  rw [hcall, items, items, pending]
  exact (Source.items_of_pull_none pulled).symm

/-- **At the end** a call that brings nothing is answered as by the list, too. -/
theorem onList_items_of_fused (fused : Source.Fused s.source) (c : Call α) :
    c.onList s.items = ((s.call c).1, (s.call c).2.items) := by
  cases h : (s.call c).1.isNothing with
  | false => exact onList_items h
  | true =>
      -- nothing is buffered and the source is at its end, so the list is empty
      have hkept := items_call_of_isNothing h
      obtain ⟨hc, pending, source, pulled, hcall⟩ := exists_source_of_isNothing h
      have hnil : s.items = Seq.nil := by
        rw [items, pending]
        exact fused.items_eq_nil (congrArg Prod.fst pulled)
      rw [hkept, hcall, hnil]
      rcases hc with rfl | rfl
      · rw [Call.onList, Seq.head_nil]
      · rw [Call.onList, Seq.head_nil, Seq.tail_nil]

/-- A call asks the source once or not at all. -/
theorem source_call (c : Call α) :
    (s.call c).2.source = s.source ∨ (s.call c).2.source = (Source.pull s.source).2 := by
  obtain ⟨source, pending⟩ := s
  cases c with
  | pushBack a => exact Or.inl rfl
  | peek =>
      rcases pending with _ | ⟨a, rest⟩
      · right
        rcases hpull : Source.pull source with ⟨_ | a, source'⟩ <;> rw [call, peek, hpull]
      · exact Or.inl rfl
  | next =>
      rcases pending with _ | ⟨a, rest⟩
      · exact Or.inr rfl
      · exact Or.inl rfl

theorem fused_call (fused : Source.Fused s.source) (c : Call α) :
    Source.Fused (s.call c).2.source := by
  rcases source_call (s := s) c with h | h
  · rw [h]
    exact fused
  · rw [h]
    exact fused.pull

end

/-! ## Many calls -/

/-- The calls to a stream that bring something are answered as by a list. -/
theorem replies_onList_answered [Source σ α] (s : PushBack σ α) (calls : List (Call α)) :
    replies Call.onList s.items ((answered calls (replies call s calls)).map Prod.fst) =
      (answered calls (replies call s calls)).map Prod.snd := by
  induction calls generalizing s with
  | nil => rfl
  | cons c calls ih =>
      have hlater := ih (s.call c).2
      cases h : (s.call c).1.isNothing with
      | true =>
          -- the list is asked only from the next call on, and is the same as before this one
          rw [items_call_of_isNothing h] at hlater
          rw [replies, answered, List.zip_cons_cons, List.filter_cons_of_neg (by simp [h])]
          exact hlater
      | false =>
          rw [replies, answered, List.zip_cons_cons, List.filter_cons_of_pos (by simp [h]),
            List.map_cons, List.map_cons, replies, onList_items h]
          exact congrArg _ hlater

/-- All calls are, if the source is at its end once it brings nothing. -/
theorem replies_eq_onList_of_fused [Source σ α] {s : PushBack σ α} (fused : Source.Fused s.source)
    (calls : List (Call α)) : replies call s calls = replies Call.onList s.items calls := by
  induction calls generalizing s with
  | nil => rfl
  | cons c calls ih =>
      rw [replies, replies, onList_items_of_fused fused, ih (fused_call fused c)]

/-- To look at a list is to change nothing. -/
theorem eraseIdx_replies_onList (l : Seq α) (before after : List (Call α)) :
    (replies Call.onList l (before ++ .peek :: after)).eraseIdx before.length =
      replies Call.onList l (before ++ after) := by
  induction before generalizing l with
  | nil => rfl
  | cons c before ih =>
      rw [List.cons_append, List.cons_append, replies, replies, List.length_cons,
        List.eraseIdx_cons_succ, ih]

/-- **A push-back stream is a list.** Over a source that is at its end once it brings nothing, all calls are
answered as by the list of its items, and a `peek` more or less changes no other answer. Over any source,
the calls that bring something are answered as by the list of its items. -/
theorem replies_faithful [Source σ α] (source : σ) (calls : List (Call α)) :
    (Source.Fused source →
      replies call ⟨source, []⟩ calls = replies Call.onList (Source.items source) calls ∧
      ∀ before after, calls = before ++ after →
        (replies call ⟨source, []⟩ (before ++ .peek :: after)).eraseIdx before.length =
          replies call ⟨source, []⟩ calls) ∧
    let brought := answered calls (replies call ⟨source, []⟩ calls)
    replies Call.onList (Source.items source) (brought.map Prod.fst) = brought.map Prod.snd := by
  refine ⟨fun fused => ?_, replies_onList_answered ⟨source, []⟩ calls⟩
  have hlist : ∀ calls : List (Call α),
      replies call ⟨source, []⟩ calls = replies Call.onList (Source.items source) calls :=
    replies_eq_onList_of_fused (s := ⟨source, []⟩) fused
  refine ⟨hlist calls, ?_⟩
  rintro before after rfl
  rw [hlist, hlist, eraseIdx_replies_onList]

/-- Two items, of which the first is looked at, and a third that is put back before them. -/
theorem replies_faithful_pair :
    let source := [1, 2]
    let before : List (Call Nat) := [.peek, .pushBack 9]
    let after : List (Call Nat) := [.next, .next, .next, .next]
    Source.Fused source ∧
      replies call ⟨source, []⟩ (before ++ after) =
        replies Call.onList (Seq.ofList source) (before ++ after) ∧
      (replies call ⟨source, []⟩ (before ++ .peek :: after)).eraseIdx before.length =
        [.item (some 1), .done, .item (some 9), .item (some 1), .item (some 2), .item none] := by
  intro source before after
  have gives : Source.Gives source source := Source.gives_list source
  obtain ⟨hlist, hpeek⟩ := (replies_faithful source (before ++ after)).1 gives.fused
  rw [gives.items_eq] at hlist
  exact ⟨gives.fused, hlist, (hpeek before after rfl).trans rfl⟩

-- a source that goes on after it brought nothing: a call more is felt by those behind it
example : replies call (⟨⟨[none, some 1]⟩, []⟩ : PushBack (Answers Nat) Nat) [.next] = [.item none] ∧
    replies call (⟨⟨[none, some 1]⟩, []⟩ : PushBack (Answers Nat) Nat) [.peek, .next] =
      [.item none, .item (some 1)] := by
  decide

end ShiftReduce.PushBack
