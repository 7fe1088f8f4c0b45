import ShiftReduce.Proofs.SlrTable.Termination

/-!
# Where a parse fails

A parser with the table of a grammar may reduce several times before it notices an error, but it takes
no token that is wrong. What it has taken begins a sentence, since its stack can be completed; and what
it stops at cannot come next, since the same moves before a sentence with this token would stop as well,
while the parse of a sentence does not.
-/

namespace ShiftReduce

variable {E : Type} {g : Grammar} {sets : FirstFollow} {a : Automaton} {t : SlrTable}

/-! ## The first wrong token -/

/-- The tokens before the place begin a sentence, and together with the token at the place, or with the
end after the last token, they do not. -/
structure Grammar.FailsAt (g : Grammar) (w : List (Token SymbolId)) (k : Nat) : Prop where
  le : k ≤ w.length
  viable : g.IsViable ((w.take k).map Token.symbol)
  wrong : match w[k]? with
    | some l => ¬ g.IsViable ((w.take k).map Token.symbol ++ [l.symbol])
    | none => ¬ g.IsSentence ((w.take k).map Token.symbol)

/-- Tokens for the rest of a sentence. -/
theorem Grammar.exists_tree_of_isSentence {u : List (Token SymbolId)} {v : List SymbolId}
    (h : g.IsSentence (u.map Token.symbol ++ v)) :
    ∃ y tree, y.map Token.symbol = v ∧ g.IsDerivationTree tree ∧ tree.leaves = u ++ y := by
  let y : List (Token SymbolId) := v.map fun x => ⟨x, ""⟩
  have hy : y.map Token.symbol = v := by
    rw [List.map_map, show Token.symbol ∘ (fun x : SymbolId => ⟨x, ""⟩) = id from rfl, List.map_id]
  rw [← hy, ← List.map_append] at h
  obtain ⟨tree, hderivation, hleaves⟩ := isSentence_iff_exists_tree.mp h
  exact ⟨y, tree, hy, hderivation, hleaves⟩

/-- A sentence fails nowhere. -/
theorem Grammar.FailsAt.not_isSentence {w : List (Token SymbolId)} {k : Nat} (h : g.FailsAt w k) :
    ¬ g.IsSentence (w.map Token.symbol) := by
  intro hsentence
  have hwrong := h.wrong
  rcases Nat.lt_or_eq_of_le h.le with hlt | rfl
  · rw [List.getElem?_eq_getElem hlt] at hwrong
    refine hwrong ⟨(w.drop (k + 1)).map Token.symbol, ?_⟩
    rw [List.append_assoc, List.singleton_append, ← List.map_cons, List.getElem_cons_drop,
      ← List.map_append, List.take_append_drop]
    exact hsentence
  · rw [List.getElem?_eq_none (Nat.le_refl _), List.take_length] at hwrong
    exact hwrong hsentence

namespace SlrTable

/-! ## Stops and sentences -/

/-- A stack that a parser has is of the beginning of a sentence. -/
theorem isViable_stackLeaves (h : t.Describes g sets a) (closed : sets.Closed g)
    (productive : ∀ x, g.Reachable x → g.isNonterminal x = true → g.Productive x)
    {σ : List (StateId × Tree SymbolId RuleId)} {q : StateId} (linked : a.Linked σ q)
    (grows : ∀ e ∈ σ, e.2.Grows g) : g.IsViable ((stackLeaves σ).map Token.symbol) := by
  obtain ⟨y, ⟨tree, hderivation, hleaves⟩, -⟩ :=
    exists_completion (E := Empty) h closed productive linked grows
  refine ⟨y.map Token.symbol, ?_⟩
  rw [← List.map_append]
  exact Grammar.isSentence_iff_exists_tree.mpr ⟨tree, hderivation, hleaves⟩

/-- Before a token that stops the parser there is no sentence that goes on with it. -/
theorem not_isViable_of_stuck (h : t.Describes g sets a) (closed : sets.Closed g) {n : Nat}
    {σ : List (StateId × Tree SymbolId RuleId)} {q : StateId} {u : List (Token SymbolId)}
    {l : Token SymbolId} {rest : List (Except E (Token SymbolId))}
    (hreach : t.parsing.Reaches n (.over 0 [] (inputs (u.map .ok ++ .ok l :: rest)))
      (.over q σ (inputs (.ok l :: rest))))
    (stuck : ¬ g.IsTerminal l.symbol ∨ t.action? q l.symbol = none) :
    ¬ g.IsViable (u.map Token.symbol ++ [l.symbol]) := by
  rintro ⟨v, hsentence⟩
  rw [← List.map_singleton, ← List.map_append] at hsentence
  obtain ⟨y, tree, -, hderivation, hleaves⟩ := Grammar.exists_tree_of_isSentence hsentence
  rw [List.append_assoc, List.singleton_append] at hleaves
  have hl : g.IsTerminal l.symbol :=
    hderivation.grows.terminals l (hleaves ▸ List.mem_append_right _ List.mem_cons_self)
  have haction := stuck.resolve_left (not_not_intro hl)
  -- over the leaves of the tree the parser makes the same moves, and stops
  rw [inputs_map_ok_append] at hreach
  have hsame := hreach.replace (feed (l :: y)) isSource_of_mem_inputs rfl
  rw [← feed_append] at hsame
  have hstop := Config.step_of_action?_eq_none (q := q) (σ := σ)
    (l := (feed (l :: y) : List (Input SymbolId RuleId E)))
    (ParsingTable.view?_tree (h.not_refuses_leaf hl)) haction
  -- but a sentence is parsed to its end, and there is one stop only
  obtain ⟨d, haccept, hok⟩ := exists_reaches_accept (E := E) h closed hderivation
  rw [hleaves] at haccept
  cases ParsingTable.stop_unique hsame hstop haccept hok

/-- Where the end of the tokens stops the parser, these are no sentence. -/
theorem not_isSentence_of_stuck (h : t.Describes g sets a) (closed : sets.Closed g) {n : Nat}
    {σ : List (StateId × Tree SymbolId RuleId)} {q : StateId} {w : List (Token SymbolId)}
    (hreach : t.parsing.Reaches (E := E) n (.over 0 [] (feed w)) (.over q σ (feed [])))
    (stuck : t.action? q g.endOfInput = none) : ¬ g.IsSentence (w.map Token.symbol) := by
  intro hsentence
  obtain ⟨tree, hderivation, rfl⟩ := Grammar.isSentence_iff_exists_tree.mp hsentence
  have hstop := Config.step_of_action?_eq_none (q := q) (σ := σ)
    (l := (feed [] : List (Input SymbolId RuleId E))) (congrArg some h.endOfInput_eq) stuck
  obtain ⟨d, haccept, hok⟩ := exists_reaches_accept (E := E) h closed hderivation
  cases ParsingTable.stop_unique hreach hstop haccept hok

/-! ## Outcomes -/

/-- What a parse of items results in: a tree whose leaves they are, or an error after the beginning of a
sentence, at a token that cannot come next, at the end where it is too early, or at a failure. -/
inductive Outcome (g : Grammar) : List (Except E (Token SymbolId)) →
    Except (ParseError SymbolId RuleId E) (Tree SymbolId RuleId) → Prop
  | accepted {tree : Tree SymbolId RuleId} (derivation : g.IsDerivationTree tree) :
      Outcome g (tree.leaves.map .ok) (.ok tree)
  | refused {w : List (Token SymbolId)} {l : Token SymbolId} {rest : List (Except E (Token SymbolId))}
      (state : StateId) (viable : g.IsViable (w.map Token.symbol))
      (wrong : ¬ g.IsViable (w.map Token.symbol ++ [l.symbol])) :
      Outcome g (w.map .ok ++ .ok l :: rest) (.error (.unexpected state l.symbol (some l.text)))
  | early {w : List (Token SymbolId)} (state : StateId) (viable : g.IsViable (w.map Token.symbol))
      (wrong : ¬ g.IsSentence (w.map Token.symbol)) :
      Outcome g (w.map .ok) (.error (.unexpected state g.endOfInput none))
  | failed {w : List (Token SymbolId)} {e : E} {rest : List (Except E (Token SymbolId))}
      (viable : g.IsViable (w.map Token.symbol)) :
      Outcome g (w.map .ok ++ .error e :: rest) (.error (.source e))

/-- A stack before what is left of the items is a path with the items before. -/
theorem Stage.of_over {items rest : List (Except E (Token SymbolId))} {n : Nat}
    {σ : List (StateId × Tree SymbolId RuleId)} {q : StateId}
    (stage : Stage g a items n (.over q σ (inputs rest))) :
    a.Linked σ q ∧ (∀ e ∈ σ, e.2.Grows g) ∧ items = (stackLeaves σ).map .ok ++ rest := by
  generalize hc : Config.over q σ (inputs rest) = c at stage
  cases stage with
  | settled linked grows spelled =>
      simp only [Config.mk.injEq, PushBack.mk.injEq] at hc
      obtain ⟨rfl, rfl, -, hrest⟩ := hc
      obtain rfl := inputs_injective hrest
      exact ⟨linked, grows, spelled⟩
  | pending linked grows tree valid next spelled =>
      simp only [Config.mk.injEq, PushBack.mk.injEq] at hc
      exact absurd hc.2.2.2 inputs_ne_node

/-- A parser that stops has one of the outcomes. -/
theorem outcome_of_ends (h : t.Describes g sets a) (closed : sets.Closed g)
    (productive : ∀ x, g.Reachable x → g.isNonterminal x = true → g.Productive x)
    {items : List (Except E (Token SymbolId))} {n : Nat} {c : Config SymbolId RuleId E}
    {result : Except (ParseError SymbolId RuleId E) (Tree SymbolId RuleId)}
    (hreach : t.parsing.Reaches n (.over 0 [] (inputs items)) c) (hends : Ends g t c result) :
    Outcome g items result := by
  have stage := (stage_initial g a items).of_reaches h hreach
  cases hends with
  | @accepted q p tree derivation =>
      obtain ⟨-, -, rfl⟩ := stage.of_over
      simpa [stackLeaves] using Outcome.accepted (E := E) derivation
  | @refused q σ l rest stuck =>
      obtain ⟨linked, grows, rfl⟩ := stage.of_over
      exact .refused q (isViable_stackLeaves h closed productive linked grows)
        (not_isViable_of_stuck h closed hreach stuck)
  | @early q σ stuck =>
      obtain ⟨linked, grows, rfl⟩ := stage.of_over
      rw [List.append_nil] at hreach ⊢
      rw [inputs_map_ok] at hreach
      exact .early q (isViable_stackLeaves h closed productive linked grows)
        (not_isSentence_of_stuck h closed hreach stuck)
  | failed =>
      obtain ⟨linked, grows, rfl⟩ := stage.of_over
      exact .failed (isViable_stackLeaves h closed productive linked grows)

/-! ## Correct prefixes -/

/-- What a parse of tokens may result in: a tree if they are a sentence, else an error at the first
token that is wrong. -/
inductive Judges (g : Grammar) (w : List (Token SymbolId)) :
    Except (ParseError SymbolId RuleId E) (Tree SymbolId RuleId) → Prop
  | sentence (tree : Tree SymbolId RuleId) (h : g.IsSentence (w.map Token.symbol)) :
      Judges g w (.ok tree)
  | wrong {k : Nat} (state : StateId) (h : g.FailsAt w k) :
      Judges g w (.error (.unexpected state ((w[k]?.map Token.symbol).getD g.endOfInput)
        (w[k]?.map Token.text)))

/-- Without failures among the items, an error is at the first token that is wrong. -/
theorem Outcome.judges {w : List (Token SymbolId)}
    {result : Except (ParseError SymbolId RuleId E) (Tree SymbolId RuleId)}
    {items : List (Except E (Token SymbolId))} (outcome : Outcome g items result)
    (hitems : w.map .ok = items) : Judges g w result := by
  have ok_injective : Function.Injective (Except.ok : Token SymbolId → Except E (Token SymbolId)) :=
    fun _ _ => Except.ok.inj
  cases outcome with
  | @accepted tree derivation =>
      obtain rfl := List.map_injective_iff.mpr ok_injective hitems
      exact .sentence tree (Grammar.isSentence_iff_exists_tree.mpr ⟨tree, derivation, rfl⟩)
  | @refused u l rest state viable wrong =>
      obtain ⟨u', v, rfl, hu, hv⟩ := List.map_eq_append_iff.mp hitems
      obtain rfl := List.map_injective_iff.mpr ok_injective hu
      obtain ⟨l', v, rfl, hl, rfl⟩ := List.map_eq_cons_iff.mp hv
      obtain rfl := ok_injective hl
      have hfails : g.FailsAt (u' ++ l' :: v) u'.length := by
        refine ⟨by simp, ?_, ?_⟩
        · rwa [List.take_left]
        · rwa [List.take_left, List.getElem?_append_right (Nat.le_refl _), Nat.sub_self]
      have hjudges := Judges.wrong (E := E) state hfails
      rwa [List.getElem?_append_right (Nat.le_refl _), Nat.sub_self] at hjudges
  | early state viable wrong =>
      obtain rfl := List.map_injective_iff.mpr ok_injective hitems
      have hfails : g.FailsAt w w.length := by
        refine ⟨Nat.le_refl _, ?_, ?_⟩
        · rwa [List.take_length]
        · rwa [List.take_length, List.getElem?_eq_none (Nat.le_refl _)]
      have hjudges := Judges.wrong (E := E) state hfails
      rwa [List.getElem?_eq_none (Nat.le_refl _)] at hjudges
  | failed viable =>
      obtain ⟨u, v, -, -, hv⟩ := List.map_eq_append_iff.mp hitems
      obtain ⟨l, v, -, hl, -⟩ := List.map_eq_cons_iff.mp hv
      cases hl

theorem judges_of_ends (h : t.Describes g sets a) (closed : sets.Closed g)
    (productive : ∀ x, g.Reachable x → g.isNonterminal x = true → g.Productive x)
    {w : List (Token SymbolId)} {n : Nat} {c : Config SymbolId RuleId E}
    {result : Except (ParseError SymbolId RuleId E) (Tree SymbolId RuleId)}
    (hreach : t.parsing.Reaches n (.over 0 [] (inputs (w.map .ok))) c) (hends : Ends g t c result) :
    Judges g w result :=
  (outcome_of_ends h closed productive hreach hends).judges rfl

/-- **The correct-prefix property.** If all nonterminals derive terminals, a parse of any tokens ends,
with a tree just when the tokens are a sentence. Otherwise it ends at the first token that is wrong, or
at the end if that is what is wrong, and tells the symbol and the text of this token. -/
theorem exists_parse_eq_of_productive
    (productive : ∀ x, g.isNonterminal x = true → g.Productive x) (h : compile g = .ok t)
    (w : List (Token SymbolId)) :
    ∃ n result, (∀ fuel, n ≤ fuel → t.parse (E := E) fuel (w.map .ok) = some result) ∧
      ((∃ tree, result = .ok tree) ↔ g.IsSentence (w.map Token.symbol)) ∧
      (¬ g.IsSentence (w.map Token.symbol) → ∃ k state, g.FailsAt w k ∧
        result = .error (.unexpected state ((w[k]?.map Token.symbol).getD g.endOfInput)
          (w[k]?.map Token.text))) := by
  obtain ⟨a, hdescribes⟩ := describes_of_compile h
  have closed := (FirstFollow.compute_proper_closed g).2
  have hproductive : ∀ x, g.Reachable x → g.isNonterminal x = true → g.Productive x :=
    fun x _ => productive x
  obtain ⟨n, c, result, hreach, hstop, hends⟩ :=
    exists_stop (E := E) hdescribes closed hproductive (w.map .ok)
  refine ⟨n + 1, result, fun fuel hfuel => ?_, ?_⟩
  · rw [parse, ParsingTable.parse_eq_run]
    exact ParsingTable.run_eq_some_of_reaches hreach hstop hfuel
  · cases judges_of_ends hdescribes closed hproductive hreach hends with
    | sentence tree hsentence => exact ⟨⟨fun _ => hsentence, fun _ => ⟨tree, rfl⟩⟩, absurd hsentence⟩
    | wrong state hfails =>
        refine ⟨⟨?_, fun hsentence => absurd hsentence hfails.not_isSentence⟩, fun _ => ?_⟩
        · rintro ⟨tree, htree⟩
          cases htree
        · exact ⟨_, state, hfails, rfl⟩

/-- The parse of `b b` and a token with a number that is not in use. -/
theorem exists_parse_repetition_eq :
    (∀ x, repetition.isNonterminal x = true → repetition.Productive x) ∧
      compile repetition = .ok repetitionTable ∧
      let w : List (Token SymbolId) := [⟨1, "x"⟩, ⟨1, "y"⟩, ⟨99, "z"⟩]
      ∃ n result,
        (∀ fuel, n ≤ fuel → repetitionTable.parse (E := Empty) fuel (w.map .ok) = some result) ∧
        ((∃ tree, result = .ok tree) ↔ repetition.IsSentence (w.map Token.symbol)) ∧
        (¬ repetition.IsSentence (w.map Token.symbol) → ∃ k state, repetition.FailsAt w k ∧
          result = .error (.unexpected state
            ((w[k]?.map Token.symbol).getD repetition.endOfInput) (w[k]?.map Token.text))) :=
  have hproductive : ∀ x, repetition.isNonterminal x = true → repetition.Productive x :=
    fun _ => productive_repetition
  have hcompile := eq_ok_valueOf isOk_compile_repetition
  ⟨hproductive, hcompile, exists_parse_eq_of_productive hproductive hcompile _⟩

end SlrTable

end ShiftReduce
