import ShiftReduce.Proofs.SlrTable.Stages

/-!
# Tables of grammars are never at fault

A parser that works with any table has to reckon with a table that does not fit its rules: one that
reduces what is not on the stack, accepts too early, or has nothing for a tree that was put back. The
table of a grammar is none of these, in any configuration that its parser comes to
(`SlrTable.faultless_of_visits`). What the items are makes no difference, and neither do the sets that
decide where to reduce: reductions in wrong places are still reductions of what has been seen.

The argument is the stage of the parse (`SlrTable.Stage`), which tells what is on the stack. It is about
streams as plain lists, so the configurations of the parser itself are first brought to that form.
-/

namespace ShiftReduce

/-! ## The configurations of a parse -/

section

variable {S R E : Type} [DecidableEq S] {T : ParsingTable S R} {items : List (Except E (Token S))}

/-- The configurations that a parser comes to over some items. -/
inductive ParsingTable.Visits (T : ParsingTable S R) (items : List (Except E (Token S))) :
    Config S R E → Prop
  | initial : Visits T items (.initial T items)
  | next {c d : Config S R E} (h : Visits T items c) (move : c.step T = .next d) :
      Visits T items d

omit [DecidableEq S] in
theorem Config.flat_over (q : StateId) (σ : List (StateId × Tree S R)) (l : List (Input S R E)) :
    (Config.over q σ l).flat = .over q σ l :=
  congrArg (Config.over q σ) (List.append_nil l)

theorem ParsingTable.Moves.flat_eq {c d : Config S R E} (h : T.Moves c d) : d.flat = d := by
  cases h with
  | shift => exact Config.flat_over _ _ _
  | reduce => exact Config.flat_over _ _ _

theorem Config.moves_flat {c d : Config S R E} (h : c.step T = .next d) :
    T.Moves c.flat d.flat := by
  have hflat := c.step_flat T
  rw [h] at hflat
  cases hstep : c.flat.step T with
  | stop result =>
      rw [hstep] at hflat
      cases hflat
  | next d' =>
      rw [hstep] at hflat
      have hmoves : T.Moves c.flat d' := Config.step_eq_next_iff.mp hstep
      have hd : d.flat = d'.flat := Move.next.inj hflat
      rw [hd, hmoves.flat_eq]
      exact hmoves

theorem Config.step_flat_eq_stop {c : Config S R E}
    {result : Except (ParseError S R E) (Tree S R)} (h : c.step T = .stop result) :
    c.flat.step T = .stop result := by
  have hflat := c.step_flat T
  rw [h] at hflat
  cases hstep : c.flat.step T with
  | stop result' =>
      rw [hstep] at hflat
      rw [Move.stop.inj hflat]
  | next d =>
      rw [hstep] at hflat
      cases hflat

namespace ParsingTable

theorem Visits.exists_reaches {c : Config S R E} (h : T.Visits items c) :
    ∃ n, T.Reaches n (.over T.initial [] (inputs items)) c.flat := by
  induction h with
  | initial => exact ⟨0, .refl _⟩
  | next h move ih =>
      obtain ⟨n, hreach⟩ := ih
      exact ⟨n + 1, hreach.tail (Config.moves_flat move)⟩

/-- The end is in view only where nothing else is to come: no token may have its symbol. -/
theorem eq_nil_of_view?_inputs
    (h : T.view? (inputs items : List (Input S R E)) = some T.endOfInput) : items = [] := by
  rcases items with _ | ⟨e | l, rest⟩
  · rfl
  · cases h
  · by_cases hrefuse : T.Refuses (.leaf l)
    · have hnone : T.view? (inputs (.ok l :: rest) : List (Input S R E)) = none := if_pos hrefuse
      rw [hnone] at h
      cases h
    · have hsome : T.view? (inputs (.ok l :: rest) : List (Input S R E)) = some l.symbol :=
        view?_tree hrefuse
      rw [hsome] at h
      exact absurd ⟨rfl, Or.inl (Option.some.inj h)⟩ hrefuse

end ParsingTable

end

/-! ## Faults -/

namespace SlrTable

variable {E : Type} {g : Grammar} {sets : FirstFollow} {a : Automaton} {t : SlrTable}
  {items : List (Except E (Token SymbolId))}

/-- The table is not at fault in a configuration. -/
structure Faultless (t : SlrTable) (c : Config SymbolId RuleId E) : Prop where
  /-- A tree that has been put back can be shifted. -/
  shifts : ∀ x r us rest, c.coming = .tree (.node x r us) :: rest →
    ∃ j, t.action? c.state x = some (.shift j)
  /-- A rule that is reduced exists, and its body is on top of the stack. -/
  reduces : ∀ x r, t.parsing.view? c.coming = some x → t.action? c.state x = some (.reduce r) →
    ∃ rule popped below, t.grammar.rule? r = some rule ∧ c.stack = popped ++ below ∧
      stackSymbols popped = rule.body.toList.reverse
  /-- What is accepted is one tree of the start symbol, with the end in view. -/
  accepts : ∀ x, t.parsing.view? c.coming = some x → t.action? c.state x = some .accept →
    c.coming = [.finish] ∧ ∃ p root, c.stack = [(p, root)] ∧ root.symbol = t.grammar.start
  /-- An error is one of the source, or something is unexpected. -/
  stops : ∀ e, c.step t.parsing = .stop (.error e) →
    (∃ failure, e = .source failure) ∨ ∃ x text, e = .unexpected c.state x text

theorem Faultless.of_flat {c : Config SymbolId RuleId E} (h : Faultless t c.flat) :
    Faultless t c := by
  have hcoming : c.flat.coming = c.coming := Config.coming_over _ _ _
  constructor
  · intro x r us rest hc
    exact h.shifts x r us rest (hcoming.trans hc)
  · intro x r view action
    rw [← hcoming] at view
    exact h.reduces x r view action
  · intro x view action
    rw [← hcoming] at view ⊢
    exact h.accepts x view action
  · intro e hstop
    exact h.stops e (Config.step_flat_eq_stop hstop)

/-- Where a parser stops, its input is the reason. -/
theorem Stage.stops (h : t.Describes g sets a) {n : Nat} {c : Config SymbolId RuleId E}
    (stage : Stage g a items n c) {e : ParseError SymbolId RuleId E}
    (hstop : c.step t.parsing = .stop (.error e)) :
    (∃ failure, e = .source failure) ∨ ∃ x text, e = .unexpected c.state x text := by
  rcases stage.proceeds h with ⟨d, move, -⟩ | ⟨result, hstop', ends⟩
  · rw [move.step] at hstop
    cases hstop
  · rw [hstop'] at hstop
    obtain rfl : result = .error e := Move.stop.inj hstop
    cases ends with
    | refused stuck => exact Or.inr ⟨_, _, rfl⟩
    | early stuck => exact Or.inr ⟨_, _, rfl⟩
    | failed => exact Or.inl ⟨_, rfl⟩

theorem Stage.faultless (h : t.Describes g sets a) {n : Nat} {c : Config SymbolId RuleId E}
    (stage : Stage g a items n c) : Faultless t c := by
  have hstops := fun e => stage.stops h (e := e)
  cases stage with
  | @settled σ q rest linked grows spelled =>
      refine ⟨?_, ?_, ?_, hstops⟩
      · intro x r us l hc
        rw [Config.coming_over] at hc
        exact absurd hc inputs_ne_node
      · intro x r _ action
        obtain ⟨k, rule, popped, below, -, rfl, hr, hσ, hpopped, -⟩ :=
          h.exists_body_of_reduce linked action
        rw [← h.grammar] at hr
        exact ⟨rule, popped, below, hr, hσ, hpopped⟩
      · intro x view action
        obtain ⟨rfl, p, root, hσ, hroot⟩ := h.exists_root_of_accept linked action
        rw [Config.coming_over, ← h.endOfInput_eq] at view
        obtain rfl : rest = [] := ParsingTable.eq_nil_of_view?_inputs view
        rw [← h.grammar] at hroot
        exact ⟨Config.coming_over _ _ _, p, root, hσ, hroot⟩
  | @pending σ q x r us i rest linked grows tree valid next spelled =>
      have inner := Grammar.ne_endOfInput_of_isNonterminal tree.isNonterminal
      obtain ⟨j, hshift⟩ := h.exists_shift linked valid next inner
      have hview : t.parsing.view? (.tree (.node x r us) :: inputs rest :
          List (Input SymbolId RuleId E)) = some x :=
        ParsingTable.view?_tree (t.parsing.not_refuses_node x r us)
      -- with the tree in view there is no action but the shift
      refine ⟨?_, ?_, ?_, hstops⟩
      · intro x' r' us' l hc
        rw [Config.coming_over] at hc
        cases hc
        exact ⟨j, hshift⟩
      · intro x' r' view action
        rw [Config.coming_over, hview] at view
        obtain rfl : x = x' := Option.some.inj view
        cases hshift.symm.trans action
      · intro x' view action
        rw [Config.coming_over, hview] at view
        obtain rfl : x = x' := Option.some.inj view
        cases hshift.symm.trans action

/-- **A table of a grammar is never at fault.** With whatever sets it was made, and over whatever items,
each configuration of a parse has the tree it reduces or accepts on its stack and the shift that a
reduced tree needs. So a parse fails only with its source or at something unexpected. -/
theorem faultless_of_visits (h : compileWith g sets = .ok t)
    (items : List (Except E (Token SymbolId))) :
    (∀ c, t.parsing.Visits items c → Faultless t c) ∧
      ∀ fuel e, t.parse fuel items = some (.error e) →
        (∃ failure, e = .source failure) ∨ ∃ q x text, e = .unexpected q x text := by
  obtain ⟨a, hdescribes⟩ := describes_of_compileWith h
  have hfaultless : ∀ c, t.parsing.Visits items c → Faultless t c := by
    intro c hvisits
    obtain ⟨n, hreach⟩ := hvisits.exists_reaches
    exact ((stage_initial g a items).of_reaches hdescribes hreach).faultless hdescribes |>.of_flat
  refine ⟨hfaultless, fun fuel e hparse => ?_⟩
  rw [SlrTable.parse, ParsingTable.parse_eq_run] at hparse
  obtain ⟨n, q, σ, l, -, hreach, hstop⟩ := ParsingTable.exists_reaches_of_run_eq_some hparse
  have hstage := (stage_initial g a items).of_reaches hdescribes hreach
  rcases hstage.stops hdescribes hstop with hsource | ⟨x, text, rfl⟩
  · exact Or.inl hsource
  · exact Or.inr ⟨q, x, text, rfl⟩

theorem isOk_compileWith_repetition :
    (compileWith repetition (.ofSteps repetition [.nullable, .follow])).isOk = true := by
  decide +kernel

/-- A table from unfinished sets, over items that no grammar allows. -/
theorem faultless_repetition : ∃ t,
    compileWith repetition (.ofSteps repetition [.nullable, .follow]) = .ok t ∧
      (∀ c, t.parsing.Visits [.ok ⟨1, "b"⟩, .ok ⟨99, "?"⟩, .error "lost"] c → Faultless t c) ∧
      t.parse 8 [.ok ⟨1, "b"⟩, .ok ⟨99, "?"⟩, .error "lost"] =
        some (.error (.unexpected 4 99 (some "?"))) := by
  have hcompile := eq_ok_valueOf isOk_compileWith_repetition
  obtain ⟨hfaultless, -⟩ := faultless_of_visits hcompile
    [.ok ⟨1, "b"⟩, .ok ⟨99, "?"⟩, .error "lost"]
  exact ⟨_, hcompile, hfaultless, by decide +kernel⟩

end SlrTable

end ShiftReduce
