import ShiftReduce.Proofs.Parser.Driver
import ShiftReduce.Proofs.SlrTable.Stages

/-!
# The parser and the driver with a stack of states

The parser keeps the current state and, with each tree, the state before it; the driver keeps with each
tree the state that was entered on it. The parser puts a reduced tree back and shifts it later; the
driver replaces a body in one step. On the table of a grammar the two agree
(`SlrTable.drive_agrees`). Where the stack of the parser is a path, a step of the driver is one or two
moves of the parser to a stack that again is a path, or both stop with the same result
(`SlrTable.Follows`): what the parser puts back is shifted at once, from the state that the driver
exposes. So the driver never finds its table broken, though it compares no symbols.
-/

namespace ShiftReduce

/-! ## One stack as the other -/

section

variable {S R E : Type}

/-- The stack of a parser in a state, with each tree the state that was entered on it. -/
def entered : StateId → List (StateId × Tree S R) → List (StateId × Tree S R)
  | _, [] => []
  | q, (p, t) :: σ => (q, t) :: entered p σ

theorem entered_append (q : StateId) (popped σ : List (StateId × Tree S R)) :
    entered q (popped ++ σ) = entered q popped ++ entered (stateBelow q popped) σ := by
  induction popped generalizing q with
  | nil => rfl
  | cons e popped ih => exact congrArg ((q, e.2) :: ·) (ih e.1)

theorem map_snd_entered (q : StateId) (σ : List (StateId × Tree S R)) :
    (entered q σ).map Prod.snd = σ.map Prod.snd := by
  induction σ generalizing q with
  | nil => rfl
  | cons e σ ih => exact congrArg (e.2 :: ·) (ih e.1)

theorem length_entered (q : StateId) (σ : List (StateId × Tree S R)) :
    (entered q σ).length = σ.length := by
  rw [← List.length_map, map_snd_entered, List.length_map]

end

namespace SlrTable

variable {E : Type} {g : Grammar} {sets : FirstFollow} {a : Automaton} {t : SlrTable}
  {σ : List (StateId × Tree SymbolId RuleId)} {q : StateId}
  {rest : List (Except E (Token SymbolId))}

/-- The driver that stands where a parser does, with what is left of the items. -/
def standing (q : StateId) (σ : List (StateId × Tree SymbolId RuleId))
    (rest : List (Except E (Token SymbolId))) : Driver SymbolId RuleId E :=
  ⟨entered q σ, rest⟩

/-- The state on top of the driver's stack is that of the parser. -/
theorem state_standing (linked : a.Linked σ q) :
    (standing q σ rest).state t.parsing = q := by
  cases linked with
  | start => rfl
  | push linked edge => rfl

/-! ## Step by step -/

/-- The driver stops with what the parser stops with, or its step is one or more moves of the parser to
another path. -/
inductive Follows (E : Type) (t : SlrTable) (a : Automaton)
    (σ : List (StateId × Tree SymbolId RuleId)) (q : StateId)
    (rest : List (Except E (Token SymbolId))) : Prop
  | next {n σ' q' rest'} (linked : a.Linked σ' q')
      (moves : t.parsing.Reaches (n + 1) (.over q σ (inputs rest)) (.over q' σ' (inputs rest')))
      (step : (standing q σ rest).step t.parsing = .next (standing q' σ' rest'))
  | stop {result} (stop : (Config.over q σ (inputs rest)).step t.parsing = .stop result)
      (step : (standing q σ rest).step t.parsing = .stop (.result result))

/-- A reduction and the shift of the new tree are one step. -/
theorem follows_reduce (h : t.Describes g sets a) (linked : a.Linked σ q) {x : SymbolId}
    (view : t.parsing.view? (inputs rest : List (Input SymbolId RuleId E)) = some x) {r : RuleId}
    (action : t.action? q x = some (.reduce r))
    (step : (standing q σ rest).step t.parsing = (standing q σ rest).reduce t.parsing r) :
    Follows E t a σ q rest := by
  obtain ⟨k, rule, popped, below, i, rfl, hr, rfl, hpopped, valid, next⟩ :=
    h.exists_body_of_reduce linked action
  have hbelow := linked.of_append
  have inner := Grammar.ne_endOfInput_of_isNonterminal
    (Grammar.isNonterminal_head (g := g) (Array.mem_of_getElem? hr))
  obtain ⟨j, hshift⟩ := h.exists_shift hbelow valid next inner
  have hproduction := h.production?_eq hr
  -- the parser goes back below the body and shifts the tree from there
  have hreduce : t.parsing.Moves (.over q (popped ++ below) (inputs rest : List (Input _ _ E))) _ :=
    .reduce view action hproduction hpopped
  have hview : t.parsing.view? (.tree (.node rule.head (k + 1) (popped.map Prod.snd).reverse) ::
      (inputs rest : List (Input SymbolId RuleId E))) = some rule.head :=
    ParsingTable.view?_tree (t.parsing.not_refuses_node _ _ _)
  have hpush := ParsingTable.Moves.shift (σ := below) hview hshift
  -- the driver exposes the same state
  have hlength : (entered q popped).length = rule.body.toList.length := by
    have hspelled := congrArg List.length hpopped
    rw [stackSymbols, List.length_map, List.length_reverse] at hspelled
    rw [length_entered, hspelled]
  have hexposed : (standing (stateBelow q popped) below rest).state t.parsing =
      stateBelow q popped := state_standing hbelow
  have hdriver := Driver.reduce_eq_next (d := standing q (popped ++ below) rest) hproduction
    (entered_append q popped below) hlength (hexposed.symm ▸ hshift)
  rw [map_snd_entered] at hdriver
  have hlinked := hbelow.push (t := .node rule.head (k + 1) (popped.map Prod.snd).reverse)
    (h.shift_iff.mp hshift)
  exact .next hlinked (.head hreduce (.single hpush)) (step.trans hdriver)

/-- With a token in view. -/
theorem follows_token (h : t.Describes g sets a) (linked : a.Linked σ q) (l : Token SymbolId) :
    Follows E t a σ q (.ok l :: rest) := by
  by_cases hl : g.IsTerminal l.symbol
  · have hfine : ¬ t.parsing.Refuses (.leaf l : Tree SymbolId RuleId) := h.not_refuses_leaf hl
    have view : t.parsing.view? (inputs (.ok l :: rest) : List (Input SymbolId RuleId E)) =
        some l.symbol := ParsingTable.view?_tree hfine
    have hstep := Driver.step_token (d := standing q σ (.ok l :: rest)) (T := t.parsing) rfl
      (fun hbad => hfine ⟨rfl, hbad⟩)
    rw [state_standing linked] at hstep
    rcases haction : t.parsing.action? q l.symbol with _ | (j | r | _) <;> rw [haction] at hstep
    · have hstop := Config.step_of_action?_eq_none (q := q) (σ := σ) view haction
      rw [inputs_cons_ok, viewText?, Tree.text_leaf] at hstop
      exact .stop hstop hstep
    · exact .next (linked.push (t := .leaf l) (h.shift_iff.mp haction))
        (.single (.shift view haction)) hstep
    · exact follows_reduce h linked view haction hstep
    · exact absurd (h.exists_root_of_accept linked haction).1 hl.ne_endOfInput
  · have hbad : l.symbol = t.parsing.endOfInput ∨ ¬ t.parsing.isToken l.symbol :=
      Or.inr fun htoken => hl (h.isToken_iff.mp htoken)
    have hrefused : t.parsing.Refuses (.leaf l : Tree SymbolId RuleId) := ⟨rfl, hbad⟩
    have hstep := Driver.step_refused (d := standing q σ (.ok l :: rest)) rfl hbad
    rw [state_standing linked] at hstep
    have hstop : (Config.over q σ (inputs (.ok l :: rest))).step t.parsing =
        .stop (.error (.unexpected q l.symbol (some (Tree.leaf l : Tree _ RuleId).text))) :=
      if_pos hrefused
    rw [Tree.text_leaf] at hstop
    exact .stop hstop hstep

/-- With the end in view. -/
theorem follows_end (h : t.Describes g sets a) (linked : a.Linked σ q) : Follows E t a σ q [] := by
  have view : t.parsing.view? (inputs [] : List (Input SymbolId RuleId E)) =
      some t.parsing.endOfInput := rfl
  have hstep := Driver.step_end (d := standing q σ ([] : List (Except E (Token SymbolId))))
    (T := t.parsing) rfl
  rw [state_standing linked] at hstep
  rcases haction : t.parsing.action? q t.parsing.endOfInput with _ | (j | r | _) <;>
    rw [haction] at hstep
  · exact .stop (Config.step_of_action?_eq_none view haction) hstep
  · obtain ⟨i, -, -, inner⟩ := linked.exists_awaits h.serves (h.shift_iff.mp haction)
    exact absurd h.endOfInput_eq inner
  · exact follows_reduce h linked view haction hstep
  · obtain ⟨-, p, root, rfl, hroot⟩ := h.exists_root_of_accept linked haction
    have hstart : root.symbol = t.parsing.start := by
      show root.symbol = t.grammar.start
      rw [h.grammar]
      exact hroot
    exact .stop (Config.step_eq_stop_ok_iff.mpr ⟨p, [], rfl, haction, rfl, hstart⟩) hstep

/-- **The driver follows the parser**, from each stack that is a path. -/
theorem follows_of_linked (h : t.Describes g sets a) (linked : a.Linked σ q)
    (rest : List (Except E (Token SymbolId))) : Follows E t a σ q rest := by
  rcases rest with _ | ⟨e | l, rest⟩
  · exact follows_end h linked
  · exact .stop (Config.step_of_view?_eq_none rfl) rfl
  · exact follows_token h linked l

/-! ## Whole runs -/

/-- A driver that ends has a result, and the parser has the same. -/
theorem exists_run_of_driver (h : t.Describes g sets a) (linked : a.Linked σ q) {fuel : Nat}
    {verdict : Verdict SymbolId RuleId E}
    (hrun : (standing q σ rest).run t.parsing fuel = some verdict) :
    ∃ result, verdict = .result result ∧
      ∃ n, t.parsing.run n (.over q σ (inputs rest)) = some result := by
  induction fuel generalizing q σ rest with
  | zero => cases hrun
  | succ fuel ih =>
      rw [Driver.run] at hrun
      cases follows_of_linked h linked rest with
      | next linked' moves step =>
          rw [step] at hrun
          obtain ⟨result, rfl, n, hn⟩ := ih linked' hrun
          exact ⟨result, rfl, _, (ParsingTable.run_add_of_reaches moves n).trans hn⟩
      | stop hstop step =>
          rw [step] at hrun
          exact ⟨_, (Option.some.inj hrun).symm, 1, ParsingTable.run_one_of_step hstop 0⟩

/-- Where the parser has a result the driver has the same. -/
theorem exists_driver_of_run (h : t.Describes g sets a) (linked : a.Linked σ q) {fuel : Nat}
    {result : Except (ParseError SymbolId RuleId E) (Tree SymbolId RuleId)}
    (hrun : t.parsing.run fuel (.over q σ (inputs rest)) = some result) :
    ∃ n, (standing q σ rest).run t.parsing n = some (.result result) := by
  induction fuel using Nat.strongRecOn generalizing q σ rest with
  | ind fuel ih =>
      cases follows_of_linked h linked rest with
      | @next n σ' q' rest' linked' moves step =>
          -- the moves of the step are among those of the run
          have hlt : n + 1 < fuel := by
            by_contra hle
            rw [ParsingTable.run_eq_none_of_reaches moves (Nat.not_lt.mp hle)] at hrun
            cases hrun
          obtain ⟨m, rfl⟩ := Nat.exists_eq_add_of_lt hlt
          rw [Nat.add_assoc, ParsingTable.run_add_of_reaches moves] at hrun
          obtain ⟨k, hk⟩ := ih (m + 1) (by omega) linked' hrun
          exact ⟨k + 1, by rw [Driver.run, step]; exact hk⟩
      | stop hstop step =>
          rcases fuel with _ | fuel
          · cases hrun
          · rw [ParsingTable.run_one_of_step hstop] at hrun
            obtain rfl := Option.some.inj hrun
            exact ⟨1, by rw [Driver.run, step]⟩

/-- **The parser refines the driver with a stack of states.** On the table of a grammar and over any
items, the two come to the same result: the same tree, the same unexpected symbol in the same state, or
the same failure of the source. Where the one goes on for ever so does the other, and the driver never
finds the table broken. -/
theorem drive_agrees (h : compile g = .ok t) (items : List (Except E (Token SymbolId))) :
    (∀ result, (∃ fuel, t.parse fuel items = some result) ↔
      ∃ fuel, t.parsing.drive fuel items = some (.result result)) ∧
    ((∀ fuel, t.parse fuel items = none) ↔ ∀ fuel, t.parsing.drive fuel items = none) ∧
    ∀ fuel, t.parsing.drive fuel items ≠ some .broken := by
  obtain ⟨a, hdescribes⟩ := describes_of_compile h
  have hparse : ∀ fuel, t.parse fuel items = t.parsing.run fuel (.over 0 [] (inputs items)) :=
    fun fuel => ParsingTable.parse_eq_run _ fuel items
  have hdriver : ∀ fuel verdict, t.parsing.drive fuel items = some verdict →
      ∃ result, verdict = .result result ∧ ∃ n, t.parse n items = some result := by
    intro fuel verdict hrun
    obtain ⟨result, hverdict, n, hn⟩ := exists_run_of_driver hdescribes .start hrun
    exact ⟨result, hverdict, n, (hparse n).trans hn⟩
  have hparser : ∀ fuel result, t.parse fuel items = some result →
      ∃ n, t.parsing.drive n items = some (.result result) := by
    intro fuel result hrun
    rw [hparse] at hrun
    exact exists_driver_of_run hdescribes .start hrun
  refine ⟨fun result => ⟨?_, ?_⟩, ⟨?_, ?_⟩, ?_⟩
  · rintro ⟨fuel, hrun⟩
    exact hparser fuel result hrun
  · rintro ⟨fuel, hrun⟩
    obtain ⟨result', hverdict, hn⟩ := hdriver fuel _ hrun
    obtain rfl := Verdict.result.inj hverdict
    exact hn
  · intro hforever fuel
    rw [Option.eq_none_iff_forall_ne_some]
    intro verdict hrun
    obtain ⟨result, -, n, hn⟩ := hdriver fuel verdict hrun
    rw [hforever] at hn
    cases hn
  · intro hforever fuel
    rw [Option.eq_none_iff_forall_ne_some]
    intro result hrun
    obtain ⟨n, hn⟩ := hparser fuel result hrun
    rw [hforever] at hn
    cases hn
  · intro fuel hrun
    obtain ⟨result, hverdict, -⟩ := hdriver fuel _ hrun
    cases hverdict

/-- Over the tokens of a tree with empty rules the parser of `repetition` takes fourteen moves, and the
driver nine steps. -/
theorem drive_repetition : compile repetition = .ok repetitionTable ∧
    let items : List (Except Empty (Token SymbolId)) := repetitionTree.leaves.map .ok
    repetitionTable.parse 13 items = none ∧
      repetitionTable.parsing.drive 9 items = some (.result (.ok repetitionTree)) ∧
      ∃ fuel, repetitionTable.parse fuel items = some (.ok repetitionTree) := by
  have hcompile := eq_ok_valueOf isOk_compile_repetition
  have hdrive : repetitionTable.parsing.drive (E := Empty) 9 (repetitionTree.leaves.map .ok) =
      some (.result (.ok repetitionTree)) := by decide +kernel
  obtain ⟨hagrees, -⟩ := drive_agrees hcompile
    (repetitionTree.leaves.map .ok : List (Except Empty (Token SymbolId)))
  exact ⟨hcompile, by decide +kernel, hdrive, (hagrees _).mpr ⟨9, hdrive⟩⟩

end SlrTable

end ShiftReduce
