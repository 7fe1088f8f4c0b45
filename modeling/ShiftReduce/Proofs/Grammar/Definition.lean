import ShiftReduce.Grammar.Definition
import ShiftReduce.Grammar.Named
import ShiftReduce.Proofs.Grammar.Derivation

/-!
# What definitions come to

A grammar is made in two ways: step by step, by a script that may go on after a refused step, or at once
from a vocabulary and rules that come from anywhere. Rules are checked in both, and in the first they are
checked twice: when they are given, against the symbols declared so far, and again when the script is
finished.

All that a step can do is said once (`DefinitionStep.Takes`); a refused step does nothing. The invariant
of a script is that its rules are well formed and its start symbol is a nonterminal, for the symbols
declared so far (`Definition.Sound`). It lasts, since declared symbols stay, so the second check refuses
nothing (`Definition.Sound.finish_outcome`). What comes out, in either way, is a well-formed grammar of
the rules that were given, in their order (`Grammar.presents_of_define`).
-/

namespace ShiftReduce

/-! ## Lists of rules -/

section

variable {symbols : Array Symbol} {rules rules' : Array Rule}

/-- A well-formed list of rules can be cut at any rule: this one can be let in behind those before it. -/
theorem WellFormedRules.admissible {r : Rule} {new : List Rule}
    (h : WellFormedRules symbols (rules ++ (r :: new).toArray)) :
    rules.size < maxRules ∧ r.Admissible symbols rules := by
  have hmem : r ∈ rules ++ (r :: new).toArray := by simp
  have hsize := h.size_le
  have hnames := h.names
  have hproductions := h.productions
  rw [Array.toList_append, List.pairwise_append] at hnames hproductions
  refine ⟨?_, h.head r hmem, h.body r hmem, fun q hq => ?_, fun q hq => ?_⟩
  · simp only [Array.size_append, List.size_toArray, List.length_cons] at hsize
    omega
  · exact hnames.2.2 q hq.val r List.mem_cons_self
  · exact hproductions.2.2 q hq.val r List.mem_cons_self

/-- Rules are let in exactly if with them the list is well formed. -/
theorem addRules_eq_ok_iff (old : WellFormedRules symbols rules) {new : List Rule} :
    addRules symbols rules new = .ok rules' ↔
      rules' = rules ++ new.toArray ∧ WellFormedRules symbols rules' := by
  induction new generalizing rules with
  | nil =>
      rw [addRules, Except.ok.injEq]
      constructor
      · rintro rfl
        exact ⟨by simp, old⟩
      · rintro ⟨rfl, -⟩
        simp
  | cons r rest ih =>
      have happend : rules ++ (r :: rest).toArray = rules.push r ++ rest.toArray := by simp
      rw [addRules]
      constructor
      · intro h
        split at h
        · cases h
        next mid hr =>
        obtain ⟨room, admissible, rfl⟩ := addRule_eq_ok_iff.mp hr
        rw [happend]
        exact (ih (old.push admissible room)).mp h
      · rintro ⟨rfl, hall⟩
        obtain ⟨room, admissible⟩ := hall.admissible
        rw [addRule_eq_ok_iff.mpr ⟨room, admissible, rfl⟩]
        exact (ih (old.push admissible room)).mpr ⟨happend, hall⟩

/-- Declared symbols stay where they are. -/
theorem getElem?_push_of_getElem? {x : Symbol} {i : SymbolId} (h : symbols[i]? = some x)
    (s : Symbol) : (symbols.push s)[i]? = some x := by
  have hi := (Array.getElem?_eq_some_iff.mp h).1
  rw [Array.getElem?_push, if_neg (Nat.ne_of_lt hi), h]

theorem kind_push_of_kind {i : SymbolId} {k : SymbolKind}
    (h : symbols[i]?.map Symbol.kind = some k) (s : Symbol) :
    (symbols.push s)[i]?.map Symbol.kind = some k := by
  obtain ⟨x, hx, hk⟩ := Option.map_eq_some_iff.mp h
  rw [getElem?_push_of_getElem? hx, Option.map_some, hk]

/-- Well-formed rules stay so when a symbol is declared. -/
theorem WellFormedRules.declare (h : WellFormedRules symbols rules) (s : Symbol) :
    WellFormedRules (symbols.push s) rules where
  head r hr := kind_push_of_kind (h.head r hr) s
  body r hr x hx := by
    obtain ⟨y, hy, inner⟩ := h.body r hr x hx
    exact ⟨y, getElem?_push_of_getElem? hy s, inner⟩
  names := h.names
  productions := h.productions
  size_le := h.size_le

end

/-! ## Scripts over a definition -/

namespace DefinitionM

variable {α β : Type}

theorem run_get_bind (k : Definition → DefinitionM α) (d : Definition) :
    (get >>= k).run d = (k d).run d := rfl

theorem run_map (f : α → β) (x : DefinitionM α) (d : Definition) :
    (f <$> x).run d = ((x.run d).1.map f, (x.run d).2) := by
  rw [ExceptT.run_map]
  rfl

theorem run_bind (x : DefinitionM α) (k : α → DefinitionM β) (d : Definition) :
    (x >>= k).run d =
      match x.run d with
      | (.error e, d') => (.error e, d')
      | (.ok a, d') => (k a).run d' := by
  rw [ExceptT.run_bind]
  simp only [bind, StateT.bind]
  rcases x.run d with ⟨_ | a, d'⟩ <;> rfl

theorem run_tryCatch (x : DefinitionM α) (k : GrammarError → DefinitionM α) (d : Definition) :
    (tryCatch x k).run d =
      match x.run d with
      | (.error e, d') => (k e).run d'
      | (.ok a, d') => (.ok a, d') := by
  rw [ExceptT.run_tryCatch]
  simp only [bind, StateT.bind]
  rcases x.run d with ⟨_ | a, d'⟩ <;> rfl

end DefinitionM

/-! ## One step -/

theorem Declarations.declare_eq_ok {d d' : Declarations} {s : Symbol} {i : SymbolId}
    (h : d.declare s = .ok (i, d')) : i = d.symbols.size ∧ d'.symbols = d.symbols.push s := by
  unfold declare at h
  split at h
  · cases h
  split at h
  · split at h
    · dsimp only at h
      split at h
      · simp only [Except.ok.injEq, Prod.mk.injEq] at h
        obtain ⟨rfl, rfl⟩ := h
        exact ⟨rfl, rfl⟩
      · cases h
    · cases h
  · cases h

theorem Grammar.kind_of_startObjection? {symbols : Array Symbol} {i : SymbolId}
    (h : startObjection? symbols i = none) :
    symbols[i]?.map Symbol.kind = some .nonterminal := by
  unfold startObjection? at h
  split at h
  · cases h
  · next s hs =>
    rw [hs, Option.map_some]
    split at h
    · next hkind => rw [hkind]
    · cases h

namespace DefinitionStep

/-- All that a step does which is not refused. -/
inductive Takes (d : Definition) : DefinitionStep → Option Nat → Definition → Prop
  | declare {s declared} (symbols : declared.symbols = d.declared.symbols.push s) :
      Takes d (.declare s) (some d.declared.symbols.size) { d with declared := declared }
  | rule {name head body} (room : d.rules.size < maxRules)
      (admissible : Rule.Admissible d.declared.symbols d.rules ⟨name, head, body.toArray⟩) :
      Takes d (.rule name head body) (some (d.rules.size + 1))
        { d with rules := d.rules.push ⟨name, head, body.toArray⟩ }
  | start {i} (nonterminal : d.declared.symbols[i]?.map Symbol.kind = some .nonterminal) :
      Takes d (.start i) none { d with start := some i }

/-- **Inversion.** A refused step does nothing. -/
theorem run_outcome (step : DefinitionStep) (d : Definition) :
    match step.run.run d with
    | (.error _, d') => d' = d
    | (.ok answer, d') => step.Takes d answer d' := by
  cases step with
  | declare s =>
      rw [run, DefinitionM.run_map, DefinitionM.declare, DefinitionM.run_get_bind]
      cases h : d.declared.declare s with
      | error e => rfl
      | ok answer =>
          obtain ⟨i, declared⟩ := answer
          obtain ⟨rfl, hsymbols⟩ := Declarations.declare_eq_ok h
          exact .declare hsymbols
  | rule name head body =>
      rw [run, DefinitionM.run_map, DefinitionM.rule, DefinitionM.run_get_bind]
      cases h : addRule d.declared.symbols d.rules ⟨name, head, body.toArray⟩ with
      | error e => rfl
      | ok rules =>
          obtain ⟨room, admissible, rfl⟩ := addRule_eq_ok_iff.mp h
          have htakes := Takes.rule room admissible
          rw [← Array.size_push] at htakes
          exact htakes
  | start i =>
      rw [run, DefinitionM.run_map, DefinitionM.startSymbol, DefinitionM.run_get_bind]
      cases h : Grammar.startObjection? d.declared.symbols i with
      | some e => rfl
      | none => exact .start (Grammar.kind_of_startObjection? h)

end DefinitionStep

/-! ## Whole scripts -/

/-- The rules of a definition are well formed and its start symbol, if one was picked, is a nonterminal,
for the symbols declared so far. -/
structure Definition.Sound (d : Definition) : Prop where
  rules : WellFormedRules d.declared.symbols d.rules
  start : ∀ i, d.start = some i → d.declared.symbols[i]?.map Symbol.kind = some .nonterminal

theorem Definition.sound_empty : ({} : Definition).Sound where
  rules := .empty _
  start := nofun

theorem DefinitionStep.Takes.sound {step : DefinitionStep} {d d' : Definition} {answer : Option Nat}
    (h : step.Takes d answer d') (sound : d.Sound) : d'.Sound := by
  cases h with
  | @declare s declared symbols =>
      constructor
      · show WellFormedRules declared.symbols d.rules
        rw [symbols]
        exact sound.rules.declare s
      · intro i hi
        show declared.symbols[i]?.map Symbol.kind = _
        rw [symbols]
        exact kind_push_of_kind (sound.start i hi) s
  | rule room admissible => exact ⟨sound.rules.push admissible room, sound.start⟩
  | start nonterminal =>
      refine ⟨sound.rules, fun i hi => ?_⟩
      obtain rfl := Option.some.inj hi
      exact nonterminal

namespace DefinitionStep

/-- The rule of a step that was not refused, with the number that the step gave out. -/
def numberedRule? : DefinitionStep × Except GrammarError (Option Nat) → Option (Rule × RuleId)
  | (.rule name head body, .ok (some id)) => some (⟨name, head, body.toArray⟩, id)
  | _ => none

/-- The rules that steps let in, in the order of the steps, with the numbers that they gave out. -/
def letIn (steps : List DefinitionStep) (d : Definition) : List (Rule × RuleId) :=
  (steps.zip (runPastErrors steps d).1).filterMap numberedRule?

/-- What is let in is added to the rules, under the next numbers. -/
theorem zipIdx_rules_runPastErrors (steps : List DefinitionStep) (d : Definition) :
    (runPastErrors steps d).2.rules.toList.zipIdx 1 =
      d.rules.toList.zipIdx 1 ++ letIn steps d := by
  induction steps generalizing d with
  | nil => exact (List.append_nil _).symm
  | cons step rest ih =>
      have houtcome := run_outcome step d
      rw [letIn, runPastErrors]
      generalize step.run.run d = result at houtcome ⊢
      obtain ⟨e | answer, d'⟩ := result
      · obtain rfl : d' = d := houtcome
        have hnone : numberedRule? (step, .error e) = none := by cases step <;> rfl
        rw [List.zip_cons_cons, List.filterMap_cons_none hnone]
        exact ih d'
      · rw [List.zip_cons_cons]
        refine (ih d').trans ?_
        cases houtcome with
        | declare symbols => rfl
        | start nonterminal => rfl
        | @rule name head body room admissible =>
            have hhere : numberedRule? (.rule name head body, .ok (some (d.rules.size + 1))) =
                some (⟨name, head, body.toArray⟩, d.rules.size + 1) := rfl
            rw [List.filterMap_cons_some hhere, Array.toList_push, List.zipIdx_append,
              List.append_assoc, Array.length_toList, Nat.add_comm 1]
            rfl

theorem sound_runPastErrors (steps : List DefinitionStep) {d : Definition} (h : d.Sound) :
    (runPastErrors steps d).2.Sound := by
  induction steps generalizing d with
  | nil => exact h
  | cons step rest ih =>
      have houtcome := run_outcome step d
      rw [runPastErrors]
      generalize step.run.run d = result at houtcome ⊢
      obtain ⟨e | answer, d'⟩ := result
      · obtain rfl : d' = d := houtcome
        exact ih h
      · exact ih (houtcome.sound h)

/-- The script that takes all steps, past those that are refused. -/
def pastErrors : List DefinitionStep → DefinitionM Unit
  | [] => return
  | step :: rest => do
    try (fun _ => ()) <$> step.run
    catch _ => pure ()
    pastErrors rest

theorem run_pastErrors (steps : List DefinitionStep) (d : Definition) :
    (pastErrors steps).run d = (.ok (), (runPastErrors steps d).2) := by
  induction steps generalizing d with
  | nil => rfl
  | cons step rest ih =>
      rw [pastErrors, DefinitionM.run_bind, DefinitionM.run_tryCatch, DefinitionM.run_map,
        runPastErrors]
      rcases step.run.run d with ⟨e | answer, d'⟩
      · exact ih d'
      · exact ih d'

theorem define_pastErrors (steps : List DefinitionStep) :
    Grammar.define (pastErrors steps) = (runPastErrors steps {}).2.finish := by
  have hrun : (pastErrors steps).run.run {} = (.ok (), (runPastErrors steps {}).2) :=
    run_pastErrors steps {}
  rw [Grammar.define, hrun]

end DefinitionStep

/-! ## The end of a script -/

/-- Only the end marker can be missing. -/
theorem Declarations.finish_outcome (d : Declarations) :
    match d.finish with
    | .ok v => v.declared = d
    | .error e => e = .missingEndOfInput ∧ ∀ s ∈ d.symbols, s.kind ≠ .endOfInput := by
  unfold finish
  split
  · next hmatch =>
    split at hmatch
    · obtain rfl := Except.ok.inj hmatch
      rfl
    · cases hmatch
  · next hmatch =>
    split at hmatch
    · cases hmatch
    · next hnone =>
      refine ⟨(Except.error.inj hmatch).symm, fun s hs hkind => ?_⟩
      obtain ⟨i, hi⟩ := Array.mem_iff_getElem?.mp hs
      have hend := (d.endOfInput_iff i).mpr (by rw [hi, Option.map_some, hkind])
      rw [hnone] at hend
      cases hend

theorem Grammar.assemble_of_wellFormed {v : Vocabulary} {start : SymbolId} {rules : Array Rule}
    (nonterminal : v.isNonterminal start = true) (wellFormed : WellFormedRules v.symbols rules) :
    assemble v start rules.toList = .ok ⟨v, start, rules, nonterminal, wellFormed⟩ := by
  have hadd : addRules v.symbols #[] rules.toList = .ok rules :=
    (addRules_eq_ok_iff (.empty _)).mpr ⟨by simp, wellFormed⟩
  unfold assemble
  split
  · next e hs =>
    rw [startObjection?_eq_none_iff.mpr nonterminal] at hs
    cases hs
  · split
    · next e hr =>
      rw [hadd] at hr
      cases hr
    · next rules' hr =>
      obtain rfl := Except.ok.inj (hadd.symm.trans hr)
      rfl

/-- A grammar that is assembled has the rules that were given. -/
theorem Grammar.of_assemble {v : Vocabulary} {start : SymbolId} {rules : List Rule} {g : Grammar}
    (h : assemble v start rules = .ok g) :
    g.vocabulary = v ∧ g.start = start ∧ g.rules.toList = rules := by
  unfold assemble at h
  split at h
  · cases h
  · split at h
    · cases h
    · next rules' hr =>
      obtain rfl := Except.ok.inj h
      obtain ⟨rfl, -⟩ := (addRules_eq_ok_iff (.empty _)).mp hr
      exact ⟨rfl, rfl, by simp⟩

namespace Definition

/-- All that the end of a script can come to. -/
inductive Finishes (d : Definition) : Except GrammarError Grammar → Prop
  | grammar {g : Grammar} (declared : g.vocabulary.declared = d.declared)
      (start : d.start.or d.firstNonterminal? = some g.start) (rules : g.rules = d.rules) :
      Finishes d (.ok g)
  | emptyNonterminals (none : ∀ s ∈ d.declared.symbols, s.kind ≠ .nonterminal) :
      Finishes d (.error .emptyNonterminals)
  | missingEndOfInput (none : ∀ s ∈ d.declared.symbols, s.kind ≠ .endOfInput) :
      Finishes d (.error .missingEndOfInput)

theorem kind_of_firstNonterminal? {d : Definition} {i : SymbolId}
    (h : d.firstNonterminal? = some i) :
    d.declared.symbols[i]?.map Symbol.kind = some .nonterminal := by
  obtain ⟨hi, hkind, -⟩ := Array.findIdx?_eq_some_iff_getElem.mp h
  rw [Array.getElem?_eq_getElem hi, Option.map_some]
  exact congrArg some (of_decide_eq_true hkind)

/-- **The second check refuses nothing.** -/
theorem Sound.finish_outcome {d : Definition} (h : d.Sound) : d.Finishes d.finish := by
  unfold finish
  split
  · next hnone =>
    obtain ⟨-, hfirst⟩ := Option.or_eq_none_iff.mp hnone
    refine .emptyNonterminals fun s hs hkind => ?_
    have hother : s.isNonterminal = false := Array.findIdx?_eq_none_iff.mp hfirst s hs
    rw [Symbol.isNonterminal, hkind] at hother
    cases hother
  · next start hstart =>
    have nonterminal : d.declared.symbols[start]?.map Symbol.kind = some .nonterminal := by
      rcases Option.or_eq_some_iff.mp hstart with hstart | ⟨-, hfirst⟩
      · exact h.start start hstart
      · exact kind_of_firstNonterminal? hfirst
    have hend := d.declared.finish_outcome
    cases hfinish : d.declared.finish with
    | error e =>
        rw [hfinish] at hend
        obtain ⟨rfl, none⟩ := hend
        exact .missingEndOfInput none
    | ok v =>
        rw [hfinish] at hend
        have wellFormed := h.rules
        rw [← hend] at nonterminal wellFormed
        have hgrammar := Grammar.assemble_of_wellFormed (v := v)
          (Vocabulary.isNonterminal_iff.mpr nonterminal) wellFormed
        show d.Finishes (Grammar.assemble v start d.rules.toList)
        rw [hgrammar]
        exact .grammar hend hstart rfl

end Definition

/-! ## What comes out -/

/-- The grammar is well formed, and its rules are the given ones, in their order. -/
structure Grammar.Presents (g : Grammar) (given : List Rule) : Prop where
  names : ∀ i j x y, g.symbol? i = some x → g.symbol? j = some y → x.name = y.name → i = j
  lookup : ∀ i x, g.symbol? i = some x → g.vocabulary.lookup? x.name = some i
  endOfInput : ∀ i, (g.symbol? i).map Symbol.kind = some .endOfInput ↔ i = g.endOfInput
  start : (g.symbol? g.start).map Symbol.kind = some .nonterminal
  heads : ∀ r ∈ given, (g.symbol? r.head).map Symbol.kind = some .nonterminal
  bodies : ∀ r ∈ given, ∀ x ∈ r.body, (∃ s, g.symbol? x = some s) ∧ x ≠ g.endOfInput
  ruleNames : given.Pairwise fun q r => q.name ≠ r.name
  productions : given.Pairwise fun q r => q.production ≠ r.production
  numbers : g.ruleIds = List.range' 1 given.length
  rules : ∀ k : Nat, g.rule? (k + 1) = given[k]?
  accept : g.rule? 0 = some ⟨"$accept", g.endOfInput, #[g.start, g.endOfInput]⟩

/-- Every value of the type is well formed. -/
theorem Grammar.presents (g : Grammar) : g.Presents g.rules.toList where
  names i j x y hi hj hname := by
    have hx : g.vocabulary.lookup? x.name = some i :=
      Vocabulary.lookup?_eq_some_iff.mpr (congrArg (Option.map Symbol.name) hi)
    have hy : g.vocabulary.lookup? y.name = some j :=
      Vocabulary.lookup?_eq_some_iff.mpr (congrArg (Option.map Symbol.name) hj)
    rw [hname] at hx
    exact Option.some.inj (hx.symm.trans hy)
  lookup i x hi := Vocabulary.lookup?_eq_some_iff.mpr (congrArg (Option.map Symbol.name) hi)
  endOfInput i := Vocabulary.eq_endOfInput_iff.symm
  start := Vocabulary.isNonterminal_iff.mp g.start_nonterminal
  heads r hr := g.rules_wellFormed.head r (Array.mem_toList_iff.mp hr)
  bodies r hr x hx := by
    have hrule := Array.mem_toList_iff.mp hr
    obtain ⟨s, hs, -⟩ := g.rules_wellFormed.body r hrule x hx
    exact ⟨⟨s, hs⟩, ne_endOfInput_of_mem_body hrule hx⟩
  ruleNames := g.rules_wellFormed.names
  productions := g.rules_wellFormed.productions
  numbers := by
    rw [ruleIds, List.range'_eq_map_range, Array.length_toList]
    exact List.map_congr_left fun i _ => Nat.add_comm i 1
  rules k := by
    rw [Array.getElem?_toList]
    rfl
  accept := rfl

/-- **Only well-formed grammars come out.** A refused step leaves no trace. A script that goes on past
refused steps fails in the end only for want of a nonterminal or of the end marker, and else defines a
well-formed grammar of the rules that it let in, each under the number that its step gave out. And
whatever the rules over a vocabulary, if they make a grammar, it is a well-formed grammar of them all. -/
theorem Grammar.presents_of_define :
    (∀ (step : DefinitionStep) (d d' : Definition) (e : GrammarError),
      step.run.run d = (.error e, d') → d' = d) ∧
    (∀ steps : List DefinitionStep,
      match define (DefinitionStep.pastErrors steps) with
      | .ok g => ∃ given, given.zipIdx 1 = DefinitionStep.letIn steps {} ∧ g.Presents given
      | .error e => e = .emptyNonterminals ∨ e = .missingEndOfInput) ∧
    ∀ (v : Vocabulary) (start : String) (rules : List Rule) (g : Grammar),
      ofNamed v start rules = .ok g →
        g.vocabulary = v ∧ v.lookup? start = some g.start ∧ g.Presents rules := by
  refine ⟨fun step d d' e hrun => ?_, fun steps => ?_, fun v start rules g h => ?_⟩
  · have houtcome := step.run_outcome d
    rw [hrun] at houtcome
    exact houtcome
  · have hsound := DefinitionStep.sound_runPastErrors steps Definition.sound_empty
    have hrules := DefinitionStep.zipIdx_rules_runPastErrors steps {}
    have hfinish := hsound.finish_outcome
    rw [DefinitionStep.define_pastErrors]
    generalize (DefinitionStep.runPastErrors steps {}).2.finish = result at hfinish
    cases hfinish with
    | @grammar g declared start rules =>
        refine ⟨g.rules.toList, ?_, g.presents⟩
        rw [rules, hrules]
        rfl
    | emptyNonterminals => exact Or.inl rfl
    | missingEndOfInput => exact Or.inr rfl
  · unfold ofNamed at h
    split at h
    · next i hi =>
      obtain ⟨rfl, rfl, rfl⟩ := of_assemble h
      exact ⟨rfl, hi, g.presents⟩
    · cases h

/-- A script whose steps are refused for each of their kinds: a name that is taken, a head that comes too
late, a start symbol that is a terminal, and rules with a name, a symbol or an end marker too many. -/
def patchySteps : List DefinitionStep :=
  [.declare ⟨.terminal, "a"⟩, .declare ⟨.nonterminal, "a"⟩, .rule "EARLY" 1 [0],
    .declare ⟨.nonterminal, "S"⟩, .start 0, .rule "ONE" 1 [0], .rule "ONE" 1 [],
    .rule "FAR" 1 [7], .declare ⟨.endOfInput, "end"⟩, .rule "END" 1 [2], .rule "NONE" 1 []]

theorem isOk_define_patchySteps :
    (Grammar.define (DefinitionStep.pastErrors patchySteps)).isOk = true := by decide +kernel

theorem presents_patchySteps :
    (∃ e, (DefinitionStep.rule "EARLY" 1 [0]).run.run {} = (.error e, {})) ∧
    (∃ g, Grammar.define (DefinitionStep.pastErrors patchySteps) = .ok g ∧
      g.Presents [⟨"ONE", 1, #[0]⟩, ⟨"NONE", 1, #[]⟩]) ∧
    ∃ g, Grammar.ofNamed repetition.vocabulary "LIST" [⟨"BOTH", 3, #[0, 1]⟩] = .ok g ∧
      g.vocabulary = repetition.vocabulary ∧ g.Presents [⟨"BOTH", 3, #[0, 1]⟩] := by
  obtain ⟨hrefused, hsteps, hnamed⟩ := Grammar.presents_of_define
  refine ⟨?_, ?_, ?_⟩
  · have herror : ((DefinitionStep.rule "EARLY" 1 [0]).run.run {}).1 =
        .error (.undeclaredSymbol "EARLY" (.numbered 1)) := rfl
    rcases hrun : (DefinitionStep.rule "EARLY" 1 [0]).run.run {} with ⟨result, d'⟩
    rw [hrun] at herror
    obtain rfl : result = _ := herror
    exact ⟨_, by rw [hrefused _ _ _ _ hrun]⟩
  · have hdefine := eq_ok_valueOf isOk_define_patchySteps
    have hpresents := hsteps patchySteps
    rw [hdefine] at hpresents
    obtain ⟨given, hgiven, hpresents⟩ := hpresents
    have hletIn : DefinitionStep.letIn patchySteps {} =
        [(⟨"ONE", 1, #[0]⟩, 1), (⟨"NONE", 1, #[]⟩, 2)] := by decide +kernel
    have hfst := congrArg (List.map Prod.fst) (hgiven.trans hletIn)
    rw [List.zipIdx_map_fst] at hfst
    obtain rfl : given = [⟨"ONE", 1, #[0]⟩, ⟨"NONE", 1, #[]⟩] := hfst
    exact ⟨_, hdefine, hpresents⟩
  · have hok : (Grammar.ofNamed repetition.vocabulary "LIST" [⟨"BOTH", 3, #[0, 1]⟩]).isOk = true := by
      decide +kernel
    obtain ⟨hvocabulary, -, hpresents⟩ := hnamed _ _ _ _ (eq_ok_valueOf hok)
    exact ⟨_, eq_ok_valueOf hok, hvocabulary, hpresents⟩

end ShiftReduce
