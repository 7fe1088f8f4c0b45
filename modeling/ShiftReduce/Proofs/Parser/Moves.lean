import ShiftReduce.Parser.Engine

/-!
# The moves of a parser

Which items a push-back stream keeps in its buffer and which in its source makes no difference to a
parser, so a configuration is read here as a state, a stack and the plain list of what is to come
(`Config.over`). On such configurations a move is one of two things (`Moves`): the tree in view is
shifted, or a body on top of the stack is reduced. `step_eq_next_iff` is the inversion that all
invariants of the parser go through; `Reaches` counts moves, and `run_eq_some_of_reaches` ties it to
the run with fuel.
-/

namespace ShiftReduce

variable {S R E : Type}

/-! ## Streams over lists -/

namespace PushBack

variable {α : Type}

/-- All that a stream over a list has still to give. -/
def toList (s : PushBack (List α) α) : List α := s.pending ++ s.source

theorem peek_fst (s : PushBack (List α) α) : s.peek.1 = s.toList.head? := by
  obtain ⟨source, pending⟩ := s
  rcases pending with _ | ⟨a, rest⟩
  · cases source <;> rfl
  · rfl

theorem toList_peek (s : PushBack (List α) α) : s.peek.2.toList = s.toList := by
  obtain ⟨source, pending⟩ := s
  rcases pending with _ | ⟨a, rest⟩
  · cases source <;> rfl
  · rfl

theorem next_fst (s : PushBack (List α) α) : s.next.1 = s.toList.head? := by
  obtain ⟨source, pending⟩ := s
  rcases pending with _ | ⟨a, rest⟩
  · cases source <;> rfl
  · rfl

theorem toList_next (s : PushBack (List α) α) : s.next.2.toList = s.toList.tail := by
  obtain ⟨source, pending⟩ := s
  rcases pending with _ | ⟨a, rest⟩
  · cases source <;> rfl
  · rfl

end PushBack

/-! ## Configurations over lists -/

/-- The configuration with a state, a stack, and a list of what is to come. -/
abbrev Config.over (state : StateId) (stack : List (StateId × Tree S R))
    (coming : List (Input S R E)) : Config S R E :=
  ⟨state, stack, ⟨[], coming⟩⟩

/-- What is to come in a configuration. -/
def Config.coming (c : Config S R E) : List (Input S R E) := c.stream.toList

@[simp] theorem Config.coming_over (q : StateId) (σ : List (StateId × Tree S R))
    (l : List (Input S R E)) : (Config.over q σ l).coming = l :=
  List.append_nil l

/-- The configuration with its stream as a plain list. -/
def Config.flat (c : Config S R E) : Config S R E := .over c.state c.stack c.stream.toList

def Move.flat : Move S R E → Move S R E
  | .next c => .next c.flat
  | .stop result => .stop result

variable [DecidableEq S]

theorem Config.act_flat (T : ParsingTable S R) (c : Config S R E) (x : S)
    (seen : Option (Tree S R)) : (c.act T x seen).flat = (c.flat.act T x seen).flat := by
  obtain ⟨q, σ, stream⟩ := c
  have hfst := stream.next_fst
  have hsnd := stream.toList_next
  unfold Config.act
  simp only [Config.flat]
  split
  · rfl
  · -- a shift sees the stream only through its first item and what comes after
    generalize stream.next = taken at hfst hsnd
    obtain ⟨item, stream'⟩ := taken
    generalize stream.toList = l at hfst hsnd
    simp only at hfst hsnd
    subst hfst
    rcases l with _ | ⟨i, rest⟩
    · rfl
    · have htail : stream'.toList = rest := hsnd
      cases i with
      | tree t => simpa [PushBack.next, Move.flat, Config.flat, PushBack.toList] using htail
      | finish => rfl
      | failure e => rfl
  · split
    · rfl
    · simp [Move.flat, Config.flat, PushBack.toList, PushBack.pushBack]
  · split <;> rfl

/-- **The buffer does not matter.** A move from a configuration and a move from its flat form
agree up to the form of the stream. -/
theorem Config.step_flat (T : ParsingTable S R) (c : Config S R E) :
    (c.step T).flat = (c.flat.step T).flat := by
  obtain ⟨q, σ, stream⟩ := c
  have hfst := stream.peek_fst
  have hsnd := stream.toList_peek
  unfold Config.step
  simp only [Config.flat]
  generalize stream.peek = seen at hfst hsnd
  obtain ⟨item, stream'⟩ := seen
  simp only at hfst hsnd
  rw [← hsnd] at hfst ⊢
  rcases hl : stream'.toList with _ | ⟨i, rest⟩
  · simp only [hl, List.head?_nil] at hfst
    subst hfst
    rfl
  · simp only [hl, List.head?_cons] at hfst
    subst hfst
    have hact := fun x seen => Config.act_flat T ⟨q, σ, stream'⟩ x (seen : Option (Tree S R))
    simp only [Config.flat, hl] at hact
    cases i with
    | tree t =>
        show (if _ then _ else Config.act T ⟨q, σ, stream'⟩ _ _ : Move S R E).flat =
          (if _ then _ else Config.act T (.over q σ (.tree t :: rest)) _ _ : Move S R E).flat
        split
        · rfl
        · exact hact _ _
    | finish => exact hact _ _
    | failure e => rfl

theorem ParsingTable.run_flat (T : ParsingTable S R) (fuel : Nat) (c : Config S R E) :
    T.run fuel c.flat = T.run fuel c := by
  induction fuel generalizing c with
  | zero => rfl
  | succ fuel ih =>
      have hstep := c.step_flat T
      rw [run, run]
      -- both configurations stop or both go on, since `Move.flat` keeps them apart
      cases h₁ : c.step T with
      | stop result =>
          cases h₂ : c.flat.step T with
          | stop result' =>
              rw [h₁, h₂] at hstep
              cases hstep
              rfl
          | next d => rw [h₁, h₂] at hstep; cases hstep
      | next c' =>
          cases h₂ : c.flat.step T with
          | stop result' => rw [h₁, h₂] at hstep; cases hstep
          | next d =>
              rw [h₁, h₂] at hstep
              have hflat : c'.flat = d.flat := Move.next.inj hstep
              show T.run fuel d = T.run fuel c'
              rw [← ih d, ← ih c', hflat]

/-- A parse is a run from the initial state over the list of all inputs. -/
theorem ParsingTable.parse_eq_run (T : ParsingTable S R) (fuel : Nat)
    (items : List (Except E (Token S))) :
    T.parse fuel items = T.run fuel (.over T.initial [] (inputs items)) :=
  (T.run_flat fuel (.initial T items)).symm

/-! ## What is in view -/

/-- A token whose symbol no token may have. -/
def ParsingTable.Refuses (T : ParsingTable S R) (t : Tree S R) : Prop :=
  t.isLeaf ∧ (t.symbol = T.endOfInput ∨ ¬ T.isToken t.symbol)

instance (T : ParsingTable S R) (t : Tree S R) : Decidable (T.Refuses t) :=
  inferInstanceAs (Decidable (_ ∧ _))

/-- The symbol in view, for which the table is asked. -/
def ParsingTable.view? (T : ParsingTable S R) : List (Input S R E) → Option S
  | .tree t :: _ => if T.Refuses t then none else some t.symbol
  | .finish :: _ => some T.endOfInput
  | .failure _ :: _ => none
  | [] => none

/-- The text in view; the end of the input has none. -/
def viewText? : List (Input S R E) → Option String
  | .tree t :: _ => some t.text
  | _ => none

theorem ParsingTable.view?_tree {T : ParsingTable S R} {t : Tree S R} {rest : List (Input S R E)}
    (h : ¬ T.Refuses t) : T.view? (.tree t :: rest) = some t.symbol := if_neg h

omit [DecidableEq S] in
theorem ParsingTable.not_refuses_node (T : ParsingTable S R) (x : S) (r : R)
    (ts : List (Tree S R)) : ¬ T.Refuses (.node x r ts) := by
  rintro ⟨h, -⟩
  exact Bool.noConfusion h

/-! ## Taking a body off the stack -/

/-- The state below trees that come off the stack in a state. -/
def stateBelow (q : StateId) : List (StateId × Tree S R) → StateId
  | [] => q
  | (p, _) :: rest => stateBelow p rest

/-- The symbols of trees on a stack, the last one first. -/
def stackSymbols (σ : List (StateId × Tree S R)) : List S := σ.map fun e => e.2.symbol

omit [DecidableEq S] in
/-- A body on top of a stack is, from left to right, the symbols of the trees there. -/
theorem stackSymbols_eq_reverse_iff {popped : List (StateId × Tree S R)} {body : List S} :
    stackSymbols popped = body.reverse ↔
      (popped.map Prod.snd).reverse.map Tree.symbol = body := by
  rw [List.map_reverse, List.map_map, List.reverse_eq_iff]
  rfl

theorem popBody_eq_ok_iff {rule : R} {q q' : StateId} {σ σ' : List (StateId × Tree S R)}
    {ts ts' : List (Tree S R)} {body : List S} :
    popBody rule q σ ts body = .ok (q', σ', ts') ↔
      ∃ popped, σ = popped ++ σ' ∧ stackSymbols popped = body ∧ q' = stateBelow q popped ∧
        ts' = (popped.map Prod.snd).reverse ++ ts := by
  induction body generalizing q σ ts with
  | nil =>
      rw [popBody]
      constructor
      · intro h
        simp only [Except.ok.injEq, Prod.mk.injEq] at h
        obtain ⟨rfl, rfl, rfl⟩ := h
        exact ⟨[], rfl, rfl, rfl, rfl⟩
      · rintro ⟨popped, rfl, hbody, rfl, rfl⟩
        obtain rfl : popped = [] := List.map_eq_nil_iff.mp hbody
        rfl
  | cons x body ih =>
      rcases σ with _ | ⟨⟨p, t⟩, σ⟩
      · rw [popBody]
        constructor
        · intro h
          cases h
        · rintro ⟨popped, hσ, hbody, -⟩
          obtain ⟨rfl, -⟩ := List.append_eq_nil_iff.mp hσ.symm
          cases hbody
      · rw [popBody]
        by_cases hx : t.symbol = x
        · rw [if_pos hx, ih]
          constructor
          · rintro ⟨popped, rfl, rfl, rfl, rfl⟩
            exact ⟨(p, t) :: popped, rfl, by simp [stackSymbols, hx], rfl, by simp⟩
          · rintro ⟨popped, hσ, hbody, rfl, rfl⟩
            rcases popped with _ | ⟨e, popped⟩
            · cases hbody
            · obtain ⟨rfl, rfl⟩ := List.cons.inj hσ
              exact ⟨popped, rfl, (List.cons.inj hbody).2, rfl, by simp⟩
        · rw [if_neg hx]
          constructor
          · intro h
            cases h
          · rintro ⟨popped, hσ, hbody, -⟩
            rcases popped with _ | ⟨e, popped⟩
            · cases hbody
            · obtain ⟨rfl, rfl⟩ := List.cons.inj hσ
              exact absurd (List.cons.inj hbody).1 hx

theorem ParsingTable.reduce_eq_ok_iff {T : ParsingTable S R} {q q' : StateId}
    {σ σ' : List (StateId × Tree S R)} {rule : R} {t : Tree S R} :
    T.reduce q σ rule = .ok (q', σ', t) ↔
      ∃ head body popped, T.production? rule = some (head, body) ∧ σ = popped ++ σ' ∧
        stackSymbols popped = body.reverse ∧ q' = stateBelow q popped ∧
        t = .node head rule (popped.map Prod.snd).reverse := by
  unfold reduce
  rcases hp : T.production? rule with _ | ⟨head, body⟩
  · simp
  · simp only [Option.some.injEq, Prod.mk.injEq]
    constructor
    · intro h
      cases hpop : popBody rule q σ [] body.reverse with
      | error fault => rw [hpop] at h; cases h
      | ok answer =>
          rw [hpop] at h
          obtain ⟨popped, hσ, hbody, hq, hts⟩ := popBody_eq_ok_iff.mp hpop
          simp only [Except.ok.injEq, Prod.mk.injEq] at h
          obtain ⟨rfl, rfl, rfl⟩ := h
          exact ⟨head, body, popped, ⟨rfl, rfl⟩, hσ, hbody, hq, by rw [hts, List.append_nil]⟩
    · rintro ⟨_, _, popped, ⟨rfl, rfl⟩, hσ, hbody, rfl, rfl⟩
      have hpop : popBody rule q σ [] body.reverse =
          .ok (stateBelow q popped, σ', (popped.map Prod.snd).reverse ++ []) :=
        popBody_eq_ok_iff.mpr ⟨popped, hσ, hbody, rfl, rfl⟩
      rw [hpop, List.append_nil]

/-! ## One move -/

/-- One move over a list of inputs: the tree in view is shifted, or a body on top of the stack is
reduced and the new tree put before all else. -/
inductive ParsingTable.Moves (T : ParsingTable S R) : Config S R E → Config S R E → Prop
  | shift {q σ t rest j} (seen : T.view? (.tree t :: rest) = some t.symbol)
      (action : T.action? q t.symbol = some (.shift j)) :
      Moves T (.over q σ (.tree t :: rest)) (.over j ((q, t) :: σ) rest)
  | reduce {q popped σ l x r head body} (seen : T.view? l = some x)
      (action : T.action? q x = some (.reduce r)) (rule : T.production? r = some (head, body))
      (spells : stackSymbols popped = body.reverse) :
      Moves T (.over q (popped ++ σ) l)
        (.over (stateBelow q popped) σ (.tree (.node head r (popped.map Prod.snd).reverse) :: l))

/-- An empty rule is reduced without a look at the stack. -/
theorem ParsingTable.Moves.reduce_empty {T : ParsingTable S R} {q : StateId}
    {σ : List (StateId × Tree S R)} {l : List (Input S R E)} {x head : S} {r : R}
    (seen : T.view? l = some x) (action : T.action? q x = some (.reduce r))
    (rule : T.production? r = some (head, [])) :
    T.Moves (.over q σ l) (.over q σ (.tree (.node head r []) :: l)) := by
  have spells : stackSymbols ([] : List (StateId × Tree S R)) = ([] : List S).reverse := rfl
  exact .reduce seen action rule spells

/-- A move with a symbol in view asks the table for it. -/
theorem Config.step_of_view? {T : ParsingTable S R} {q : StateId}
    {σ : List (StateId × Tree S R)} {l : List (Input S R E)} {x : S} (h : T.view? l = some x) :
    ∃ seen : Option (Tree S R), (Config.over q σ l).step T = (Config.over q σ l).act T x seen ∧
      seen.map Tree.text = viewText? l ∧ (∀ t rest, l = .tree t :: rest → seen = some t) ∧
      (∀ rest, l = .finish :: rest → seen = none) := by
  rcases l with _ | ⟨t | _ | e, rest⟩
  · cases h
  · have hrefuse : ¬ T.Refuses t := by
      intro hr
      rw [ParsingTable.view?, if_pos hr] at h
      cases h
    obtain rfl : t.symbol = x := by
      rw [ParsingTable.view?_tree hrefuse] at h
      exact Option.some.inj h
    refine ⟨some t, if_neg hrefuse, rfl, ?_, ?_⟩
    · rintro _ _ ⟨⟩
      rfl
    · rintro _ ⟨⟩
  · obtain rfl : T.endOfInput = x := Option.some.inj h
    refine ⟨none, rfl, rfl, ?_, ?_⟩
    · rintro _ _ ⟨⟩
    · rintro _ ⟨⟩
      rfl
  · cases h

/-- Where no symbol is in view, the parser stops: at a refused token, at a failure of the source,
or at nothing. -/
theorem Config.step_of_view?_eq_none {T : ParsingTable S R} {q : StateId}
    {σ : List (StateId × Tree S R)} {l : List (Input S R E)} (h : T.view? l = none) :
    (Config.over q σ l).step T = .stop (.error (match l with
      | .tree t :: _ => .unexpected q t.symbol (some t.text)
      | .failure e :: _ => .source e
      | _ => .exhausted q)) := by
  rcases l with _ | ⟨t | _ | e, rest⟩
  · rfl
  · by_cases hr : T.Refuses t
    · exact if_pos hr
    · rw [ParsingTable.view?_tree hr] at h
      cases h
  · cases h
  · rfl

/-- **Inversion.** All that a move which goes on can do. -/
theorem Config.step_eq_next_iff {T : ParsingTable S R} {q : StateId}
    {σ : List (StateId × Tree S R)} {l : List (Input S R E)} {c : Config S R E} :
    (Config.over q σ l).step T = .next c ↔ T.Moves (.over q σ l) c := by
  constructor
  · intro h
    cases hv : T.view? l with
    | none =>
        rw [Config.step_of_view?_eq_none hv] at h
        cases h
    | some x =>
        obtain ⟨seen, hstep, -⟩ := Config.step_of_view? (q := q) (σ := σ) hv
        rw [hstep] at h
        unfold Config.act at h
        split at h
        · cases h
        · next j ha =>
          rcases l with _ | ⟨t | _ | e, rest⟩
          · cases h
          · obtain rfl : (Config.over j ((q, t) :: σ) rest) = c := Move.next.inj h
            by_cases hr : T.Refuses t
            · rw [ParsingTable.view?, if_pos hr] at hv
              cases hv
            · obtain rfl : t.symbol = x := by
                rw [ParsingTable.view?_tree hr] at hv
                exact Option.some.inj hv
              exact .shift hv ha
          · cases h
          · cases h
        · next r ha =>
          split at h
          · cases h
          · next q' σ' t hred =>
            obtain ⟨head, body, popped, hp, rfl, hbody, rfl, rfl⟩ :=
              ParsingTable.reduce_eq_ok_iff.mp hred
            obtain rfl := Move.next.inj h
            exact .reduce hv ha hp hbody
        · split at h <;> cases h
  · intro h
    cases h with
    | shift hv ha =>
        obtain ⟨seen, hstep, -⟩ := Config.step_of_view? (q := q) (σ := σ) hv
        rw [hstep]
        unfold Config.act
        rw [ha]
        rfl
    | @reduce _ popped σ' _ x r head body hv ha hp hbody =>
        obtain ⟨seen, hstep, -⟩ := Config.step_of_view? (q := q) (σ := popped ++ σ') hv
        have hred : T.reduce q (popped ++ σ') r = .ok (stateBelow q popped, σ',
            .node head r (popped.map Prod.snd).reverse) :=
          ParsingTable.reduce_eq_ok_iff.mpr ⟨head, body, popped, hp, rfl, hbody, rfl, rfl⟩
        rw [hstep]
        simp only [Config.act, ha, hred]
        rfl

/-- A symbol without an action is unexpected. -/
theorem Config.step_of_action?_eq_none {T : ParsingTable S R} {q : StateId}
    {σ : List (StateId × Tree S R)} {l : List (Input S R E)} {x : S} (hv : T.view? l = some x)
    (ha : T.action? q x = none) :
    (Config.over q σ l).step T = .stop (.error (.unexpected q x (viewText? l))) := by
  obtain ⟨seen, hstep, htext, -⟩ := Config.step_of_view? (q := q) (σ := σ) hv
  rw [hstep, Config.act, ha, htext]

/-- A parse ends well in one way only: the end is in view, the table accepts it, and the one tree
on the stack is of the start symbol. -/
theorem Config.step_eq_stop_ok_iff {T : ParsingTable S R} {q : StateId}
    {σ : List (StateId × Tree S R)} {l : List (Input S R E)} {root : Tree S R} :
    (Config.over q σ l).step T = .stop (.ok root) ↔
      ∃ p rest, l = .finish :: rest ∧ T.action? q T.endOfInput = some .accept ∧
        σ = [(p, root)] ∧ root.symbol = T.start := by
  constructor
  · intro h
    cases hv : T.view? l with
    | none =>
        rw [Config.step_of_view?_eq_none hv] at h
        cases h
    | some x =>
        obtain ⟨seen, hstep, -, htree, -⟩ := Config.step_of_view? (q := q) (σ := σ) hv
        rw [hstep] at h
        unfold Config.act at h
        split at h
        · cases h
        · split at h <;> cases h
        · split at h <;> cases h
        · next ha =>
          split at h
          · cases h
          · next root' hacc =>
            obtain rfl : root' = root := Except.ok.inj (Move.stop.inj h)
            rcases l with _ | ⟨t | _ | e, rest⟩
            · cases hv
            · -- with a tree in view nothing is accepted
              rw [htree t rest rfl] at hacc
              cases hacc
            · cases hv
              unfold ParsingTable.accept at hacc
              split at hacc
              · cases hacc
              · split at hacc
                · cases hacc
                · next hσ =>
                  split at hacc
                  · next hroot =>
                    cases hacc
                    exact ⟨_, rest, rfl, ha, hσ, hroot⟩
                  · cases hacc
                · cases hacc
            · cases hv
  · rintro ⟨p, rest, rfl, ha, rfl, hroot⟩
    have hacc : T.accept [(p, root)] true = .ok root := if_pos hroot
    show Config.act T _ _ none = _
    simp only [Config.act, ha, Option.isNone_none, hacc]

/-! ## Many moves -/

/-- So many moves lead from one configuration to another. -/
inductive ParsingTable.Reaches (T : ParsingTable S R) :
    Nat → Config S R E → Config S R E → Prop
  | refl (c) : Reaches T 0 c c
  | head {n c d e} (move : T.Moves c d) (rest : Reaches T n d e) : Reaches T (n + 1) c e

namespace ParsingTable

variable {T : ParsingTable S R}

theorem Moves.step {c d : Config S R E} (h : T.Moves c d) : c.step T = .next d := by
  cases h with
  | shift hv ha => exact Config.step_eq_next_iff.mpr (.shift hv ha)
  | reduce hv ha hp hs => exact Config.step_eq_next_iff.mpr (.reduce hv ha hp hs)

theorem Moves.deterministic {c d e : Config S R E} (h₁ : T.Moves c d) (h₂ : T.Moves c e) :
    d = e :=
  Move.next.inj (h₁.step.symm.trans h₂.step)

theorem Reaches.trans {n m : Nat} {c d e : Config S R E} (h₁ : T.Reaches n c d)
    (h₂ : T.Reaches m d e) : T.Reaches (n + m) c e := by
  induction h₁ with
  | refl c => simpa using h₂
  | head move rest ih =>
      rw [Nat.succ_add]
      exact .head move (ih h₂)

theorem Reaches.single {c d : Config S R E} (h : T.Moves c d) : T.Reaches 1 c d :=
  .head h (.refl d)

theorem Reaches.tail {n : Nat} {c d e : Config S R E} (h₁ : T.Reaches n c d)
    (h₂ : T.Moves d e) : T.Reaches (n + 1) c e :=
  h₁.trans (.single h₂)

theorem run_add_of_reaches {n : Nat} {c d : Config S R E} (h : T.Reaches n c d) (m : Nat) :
    T.run (n + m) c = T.run m d := by
  induction h with
  | refl c => rw [Nat.zero_add]
  | head move rest ih =>
      rw [Nat.succ_add, run, move.step]
      exact ih

theorem run_one_of_step {c : Config S R E} {result : Except (ParseError S R E) (Tree S R)}
    (h : c.step T = .stop result) (m : Nat) : T.run (m + 1) c = some result := by
  rw [run, h]

/-- A run ends where some number of moves leads to a stop. -/
theorem run_eq_some_of_reaches {n fuel : Nat} {c d : Config S R E}
    {result : Except (ParseError S R E) (Tree S R)} (h : T.Reaches n c d)
    (hstop : d.step T = .stop result) (hfuel : n < fuel) : T.run fuel c = some result := by
  obtain ⟨m, rfl⟩ := Nat.exists_eq_add_of_lt hfuel
  rw [Nat.add_assoc, run_add_of_reaches h, run_one_of_step hstop]

/-- Two ways from one configuration lie on one another, so a way to a stop is the longest. -/
theorem Reaches.le_of_stop {n m : Nat} {c d e : Config S R E}
    {result : Except (ParseError S R E) (Tree S R)} (h₁ : T.Reaches n c d)
    (h₂ : T.Reaches m c e) (hstop : e.step T = .stop result) : n ≤ m := by
  induction h₁ generalizing m with
  | refl c => exact Nat.zero_le _
  | head move rest ih =>
      cases h₂ with
      | refl c =>
          rw [move.step] at hstop
          cases hstop
      | head move' rest' =>
          obtain rfl := move.deterministic move'
          exact Nat.succ_le_succ (ih rest')

/-- There is one stop. -/
theorem stop_unique {n m : Nat} {c d e : Config S R E}
    {result result' : Except (ParseError S R E) (Tree S R)} (h₁ : T.Reaches n c d)
    (hstop₁ : d.step T = .stop result) (h₂ : T.Reaches m c e)
    (hstop₂ : e.step T = .stop result') : result = result' := by
  have hrun₁ := run_eq_some_of_reaches h₁ hstop₁ (Nat.lt_succ_of_le (Nat.le_max_left n m))
  have hrun₂ := run_eq_some_of_reaches h₂ hstop₂ (Nat.lt_succ_of_le (Nat.le_max_right n m))
  exact Option.some.inj (hrun₁.symm.trans hrun₂)

/-- While there are moves there is no result. -/
theorem run_eq_none_of_reaches {n fuel : Nat} {c d : Config S R E} (h : T.Reaches n c d)
    (hfuel : fuel ≤ n) : T.run fuel c = none := by
  induction h generalizing fuel with
  | refl c =>
      obtain rfl : fuel = 0 := Nat.le_zero.mp hfuel
      rfl
  | head move rest ih =>
      rcases fuel with _ | fuel
      · rfl
      · rw [run, move.step]
        exact ih (Nat.le_of_succ_le_succ hfuel)

/-- **A run that ends** has gone through moves to a stop. -/
theorem exists_reaches_of_run_eq_some {fuel : Nat} {q : StateId}
    {σ : List (StateId × Tree S R)} {l : List (Input S R E)}
    {result : Except (ParseError S R E) (Tree S R)}
    (h : T.run fuel (.over q σ l) = some result) :
    ∃ n q' σ' l', n < fuel ∧ T.Reaches n (.over q σ l) (.over q' σ' l') ∧
      (Config.over q' σ' l').step T = .stop result := by
  induction fuel generalizing q σ l with
  | zero => cases h
  | succ fuel ih =>
      rw [run] at h
      cases hstep : (Config.over q σ l).step T with
      | stop result' =>
          rw [hstep] at h
          obtain rfl : result' = result := Option.some.inj h
          exact ⟨0, q, σ, l, Nat.succ_pos _, .refl _, hstep⟩
      | next d =>
          rw [hstep] at h
          have move := Config.step_eq_next_iff.mp hstep
          obtain ⟨q₁, σ₁, l₁, rfl⟩ : ∃ q₁ σ₁ l₁, d = .over q₁ σ₁ l₁ := by
            cases move with
            | shift => exact ⟨_, _, _, rfl⟩
            | reduce => exact ⟨_, _, _, rfl⟩
          obtain ⟨n, q', σ', l', hn, hreach, hstop⟩ := ih h
          exact ⟨n + 1, q', σ', l', Nat.succ_lt_succ hn, .head move hreach, hstop⟩

end ParsingTable

end ShiftReduce
