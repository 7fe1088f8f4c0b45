import ShiftReduce.Proofs.Grammar.Definition

/-!
# Two ways to one grammar

A grammar can be written by names, over a finished vocabulary and with the rules in groups that are
checked one by one, or as a script that declares the symbols, gives the rules by number and picks the
start symbol last. The checks come at different times: the end marker is missed first or last, and two
rules of different groups clash only when all rules are put together. Still the two ways let the same
lists in and make the same grammar of them (`Grammar.ofGroups_eq_ok_iff`).

Both are brought to one form. What is built of the groups is the rules with numbers for names, if each
name is declared and each group is well formed by itself; and a well-formed list has well-formed parts.
A script that is not refused has declared the symbols and let in the rules, and its end repeats the
checks. So each way succeeds just if the vocabulary does and the numbered rules can be assembled over it.
-/

namespace ShiftReduce

/-! ## Results -/

section

variable {ε α β : Type}

theorem except_bind_eq_ok_iff {x : Except ε α} {k : α → Except ε β} {b : β} :
    (x >>= k) = .ok b ↔ ∃ a, x = .ok a ∧ k a = .ok b := by
  cases x with
  | error e =>
      constructor
      · intro h
        cases h
      · rintro ⟨a, h, -⟩
        cases h
  | ok a =>
      constructor
      · intro h
        exact ⟨a, rfl, h⟩
      · rintro ⟨a', h, hb⟩
        obtain rfl := Except.ok.inj h
        exact hb

/-- A list is taken through a function that has one answer for what it does not refuse. -/
theorem mapM_eq_ok_iff {f : α → Except ε β} {accepts : α → Prop} {answer : α → β}
    (hf : ∀ a b, f a = .ok b ↔ accepts a ∧ b = answer a) {xs : List α} {ys : List β} :
    xs.mapM f = .ok ys ↔ (∀ x ∈ xs, accepts x) ∧ ys = xs.map answer := by
  induction xs generalizing ys with
  | nil =>
      constructor
      · intro h
        exact ⟨nofun, (Except.ok.inj h).symm⟩
      · rintro ⟨-, rfl⟩
        rfl
  | cons x xs ih =>
      rw [List.mapM_cons, except_bind_eq_ok_iff, List.forall_mem_cons]
      constructor
      · rintro ⟨y, hy, h⟩
        obtain ⟨rest, hrest, h⟩ := except_bind_eq_ok_iff.mp h
        obtain ⟨hx, rfl⟩ := (hf x y).mp hy
        obtain ⟨hxs, rfl⟩ := ih.mp hrest
        exact ⟨⟨hx, hxs⟩, (Except.ok.inj h).symm⟩
      · rintro ⟨⟨hx, hxs⟩, rfl⟩
        refine ⟨answer x, (hf x _).mpr ⟨hx, rfl⟩, ?_⟩
        exact except_bind_eq_ok_iff.mpr ⟨_, ih.mpr ⟨hxs, rfl⟩, rfl⟩

end

/-! ## Names and numbers -/

/-- The list has a symbol with the name. -/
def Declares (symbols : List Symbol) (name : String) : Prop := ∃ s ∈ symbols, s.name = name

/-- The number that a list of symbols gives to a name, when it is declared in its order. -/
def numberOf (symbols : List Symbol) (name : String) : SymbolId :=
  symbols.findIdx fun s => s.name = name

namespace NamedRule

/-- All symbols of the rule are declared. -/
structure Declared (symbols : List Symbol) (r : NamedRule) : Prop where
  head : Declares symbols r.head
  body : ∀ x ∈ r.body, Declares symbols x

/-- The rule with numbers for names. -/
def numbered (symbols : List Symbol) (r : NamedRule) : Rule where
  name := r.name
  head := numberOf symbols r.head
  body := (r.body.map (numberOf symbols)).toArray

end NamedRule

namespace Declarations

variable {d d' : Declarations} {symbols : List Symbol}

theorem symbols_declareAll (h : d.declareAll symbols = .ok d') :
    d'.symbols = d.symbols ++ symbols.toArray := by
  induction symbols generalizing d with
  | nil =>
      obtain rfl := Except.ok.inj h
      simp
  | cons s rest ih =>
      rw [declareAll] at h
      split at h
      · cases h
      · next i mid hmid =>
        rw [ih h, (declare_eq_ok hmid).2]
        simp

/-- What is finished has the declared symbols. -/
theorem declared_of_finish {v : Vocabulary} (h : d.finish = .ok v) : v.declared = d := by
  have houtcome := d.finish_outcome
  rw [h] at houtcome
  exact houtcome

end Declarations

namespace Vocabulary

variable {v : Vocabulary} {symbols : List Symbol}

theorem ofSymbols_eq_ok_iff :
    ofSymbols symbols = .ok v ↔
      ∃ d, (default : Declarations).declareAll symbols = .ok d ∧ d.finish = .ok v := by
  rw [ofSymbols]
  cases (default : Declarations).declareAll symbols with
  | error e => simp
  | ok d => simp

theorem symbols_of_ofSymbols (h : ofSymbols symbols = .ok v) : v.symbols = symbols.toArray := by
  obtain ⟨d, hd, hv⟩ := ofSymbols_eq_ok_iff.mp h
  rw [Vocabulary.symbols, Declarations.declared_of_finish hv, Declarations.symbols_declareAll hd]
  exact Array.empty_append

/-- A name is found under the number that the list of symbols gives to it. -/
theorem lookup?_eq_some_iff_numberOf (hv : v.symbols = symbols.toArray) {name : String}
    {i : SymbolId} :
    v.lookup? name = some i ↔ Declares symbols name ∧ i = numberOf symbols name := by
  have hfound : Declares symbols name → v.lookup? name = some (numberOf symbols name) := by
    rintro ⟨s, hs, hname⟩
    have hlt : numberOf symbols name < symbols.length :=
      List.findIdx_lt_length_of_exists ⟨s, hs, decide_eq_true hname⟩
    have hhere : symbols[numberOf symbols name].name = name :=
      of_decide_eq_true (List.findIdx_getElem (w := hlt))
    rw [lookup?_eq_some_iff, symbol?, hv, List.getElem?_toArray, List.getElem?_eq_getElem hlt,
      Option.map_some, hhere]
  constructor
  · intro h
    have hdeclares : Declares symbols name := by
      obtain ⟨s, hs, hname⟩ := Option.map_eq_some_iff.mp (lookup?_eq_some_iff.mp h)
      rw [symbol?, hv, List.getElem?_toArray] at hs
      exact ⟨s, List.mem_of_getElem? hs, hname⟩
    exact ⟨hdeclares, Option.some.inj (h.symm.trans (hfound hdeclares))⟩
  · rintro ⟨hdeclares, rfl⟩
    exact hfound hdeclares

theorem resolveName_eq_ok_iff (hv : v.symbols = symbols.toArray) {rule name : String}
    {i : SymbolId} :
    v.resolveName rule name = .ok i ↔ Declares symbols name ∧ i = numberOf symbols name := by
  rw [← lookup?_eq_some_iff_numberOf hv, resolveName]
  cases v.lookup? name with
  | none => simp
  | some j => simp

theorem resolve_eq_ok_iff (hv : v.symbols = symbols.toArray) {r : NamedRule} {rule : Rule} :
    v.resolve r = .ok rule ↔ r.Declared symbols ∧ rule = r.numbered symbols := by
  have hbody : ∀ ids, r.body.mapM (v.resolveName r.name) = .ok ids ↔
      (∀ x ∈ r.body, Declares symbols x) ∧ ids = r.body.map (numberOf symbols) :=
    fun _ => mapM_eq_ok_iff fun _ _ => resolveName_eq_ok_iff hv
  simp only [resolve, except_bind_eq_ok_iff, resolveName_eq_ok_iff hv, hbody]
  constructor
  · rintro ⟨_, ⟨head, rfl⟩, _, ⟨body, rfl⟩, h⟩
    exact ⟨⟨head, body⟩, (Except.ok.inj h).symm⟩
  · rintro ⟨⟨head, body⟩, rfl⟩
    exact ⟨_, ⟨head, rfl⟩, _, ⟨body, rfl⟩, rfl⟩

/-! ## Groups -/

/-- To build rules is to give numbers for names and then to let the rules in. -/
theorem buildRulesOnto_eq_ok_iff (hv : v.symbols = symbols.toArray) {rules : List NamedRule}
    {built built' : Array Rule} :
    v.buildRulesOnto built rules = .ok built' ↔ (∀ r ∈ rules, r.Declared symbols) ∧
      addRules v.symbols built (rules.map (·.numbered symbols)) = .ok built' := by
  induction rules generalizing built with
  | nil => exact ⟨fun h => ⟨nofun, h⟩, fun h => h.2⟩
  | cons r rest ih =>
      simp only [buildRulesOnto, except_bind_eq_ok_iff, resolve_eq_ok_iff hv, ih,
        List.forall_mem_cons, List.map_cons, addRules]
      constructor
      · rintro ⟨_, ⟨hr, rfl⟩, mid, hmid, hrest, h⟩
        rw [hmid]
        exact ⟨⟨hr, hrest⟩, h⟩
      · rintro ⟨⟨hr, hrest⟩, h⟩
        cases hmid : addRule v.symbols built (r.numbered symbols) with
        | error e =>
            rw [hmid] at h
            cases h
        | ok mid =>
            rw [hmid] at h
            exact ⟨_, ⟨hr, rfl⟩, mid, hmid, hrest, h⟩

theorem buildRules_eq_ok_iff (hv : v.symbols = symbols.toArray) {rules : List NamedRule}
    {built : Array Rule} :
    v.buildRules rules = .ok built ↔
      ((∀ r ∈ rules, r.Declared symbols) ∧
        WellFormedRules v.symbols (rules.map (·.numbered symbols)).toArray) ∧
      built = (rules.map (·.numbered symbols)).toArray := by
  rw [buildRules, buildRulesOnto_eq_ok_iff hv, addRules_eq_ok_iff (.empty _), Array.empty_append]
  constructor
  · rintro ⟨declared, rfl, wellFormed⟩
    exact ⟨⟨declared, wellFormed⟩, rfl⟩
  · rintro ⟨⟨declared, wellFormed⟩, rfl⟩
    exact ⟨declared, rfl, wellFormed⟩

end Vocabulary

/-- A part of a well-formed list is well formed. -/
theorem WellFormedRules.of_sublist {symbols : Array Symbol} {rules part : List Rule}
    (h : WellFormedRules symbols rules.toArray) (sub : part.Sublist rules) :
    WellFormedRules symbols part.toArray where
  head r hr := h.head r (List.mem_toArray.mpr (sub.subset (List.mem_toArray.mp hr)))
  body r hr := h.body r (List.mem_toArray.mpr (sub.subset (List.mem_toArray.mp hr)))
  names := h.names.sublist sub
  productions := h.productions.sublist sub
  size_le := Nat.le_trans sub.length_le h.size_le

namespace Grammar

theorem assemble_eq_ok_iff {v : Vocabulary} {start : SymbolId} {rules : List Rule} {g : Grammar} :
    assemble v start rules = .ok g ↔ v.isNonterminal start = true ∧
      WellFormedRules v.symbols rules.toArray ∧ g.vocabulary = v ∧ g.start = start ∧
      g.rules = rules.toArray := by
  constructor
  · intro h
    obtain ⟨rfl, rfl, rfl⟩ := of_assemble h
    exact ⟨g.start_nonterminal, g.rules_wellFormed, rfl, rfl, rfl⟩
  · rintro ⟨nonterminal, wellFormed, hv, hstart, hrules⟩
    refine (assemble_of_wellFormed nonterminal wellFormed).trans (congrArg _ ?_)
    cases g
    cases hv
    cases hstart
    cases hrules
    rfl

/-! ## By names -/

/-- The grammar of symbols, groups of rules and the name of a start symbol: the vocabulary is made
first, then each group of rules is built over it, and last all rules are put together. -/
def ofGroups (symbols : List Symbol) (groups : List (List NamedRule)) (start : String) :
    Except GrammarError Grammar := do
  let v ← Vocabulary.ofSymbols symbols
  let built ← groups.mapM v.buildRules
  ofNamed v start (built.flatMap Array.toList)

/-- Every name that is used is declared. -/
structure NamesDeclared (symbols : List Symbol) (rules : List NamedRule) (start : String) :
    Prop where
  rules : ∀ r ∈ rules, r.Declared symbols
  start : Declares symbols start

theorem ofNamed_eq_ok_iff {v : Vocabulary} {symbols : List Symbol}
    (hv : v.symbols = symbols.toArray) {start : String} {rules : List Rule} {g : Grammar} :
    ofNamed v start rules = .ok g ↔
      Declares symbols start ∧ assemble v (numberOf symbols start) rules = .ok g := by
  have hlookup : ∀ i, v.lookup? start = some i ↔
      Declares symbols start ∧ i = numberOf symbols start :=
    fun _ => Vocabulary.lookup?_eq_some_iff_numberOf hv
  rw [ofNamed]
  cases hstart : v.lookup? start with
  | none =>
      have hno : ¬ Declares symbols start := by
        intro hdeclares
        have := (hlookup _).mpr ⟨hdeclares, rfl⟩
        rw [hstart] at this
        cases this
      simp [hno]
  | some i =>
      obtain ⟨hdeclares, rfl⟩ := (hlookup i).mp hstart
      exact (and_iff_right hdeclares).symm

/-- However the rules are grouped, they are put together as one list. -/
theorem ofGroups_outcome {symbols : List Symbol} {groups : List (List NamedRule)} {start : String}
    {g : Grammar} :
    ofGroups symbols groups start = .ok g ↔ NamesDeclared symbols groups.flatten start ∧
      ∃ v, Vocabulary.ofSymbols symbols = .ok v ∧
        assemble v (numberOf symbols start) (groups.flatten.map (·.numbered symbols)) = .ok g := by
  have hflat : (groups.map fun rules => (rules.map (·.numbered symbols)).toArray).flatMap
      Array.toList = groups.flatten.map (·.numbered symbols) := by
    rw [List.flatMap_map, List.map_flatten, List.flatMap_def]
  rw [ofGroups, except_bind_eq_ok_iff]
  constructor
  · rintro ⟨v, hv, h⟩
    have hsymbols := Vocabulary.symbols_of_ofSymbols hv
    obtain ⟨built, hbuilt, h⟩ := except_bind_eq_ok_iff.mp h
    obtain ⟨hgroups, rfl⟩ := (mapM_eq_ok_iff fun _ _ =>
      Vocabulary.buildRules_eq_ok_iff hsymbols).mp hbuilt
    rw [hflat, ofNamed_eq_ok_iff hsymbols] at h
    refine ⟨⟨fun r hr => ?_, h.1⟩, v, hv, h.2⟩
    obtain ⟨rules, hrules, hr⟩ := List.mem_flatten.mp hr
    exact (hgroups rules hrules).1 r hr
  · rintro ⟨⟨declared, hstart⟩, v, hv, h⟩
    have hsymbols := Vocabulary.symbols_of_ofSymbols hv
    have wellFormed := (assemble_eq_ok_iff.mp h).2.1
    refine ⟨v, hv, except_bind_eq_ok_iff.mpr ⟨_, (mapM_eq_ok_iff fun _ _ =>
      Vocabulary.buildRules_eq_ok_iff hsymbols).mpr ⟨fun rules hrules => ⟨?_, ?_⟩, rfl⟩, ?_⟩⟩
    · intro r hr
      exact declared r (List.mem_flatten.mpr ⟨rules, hrules, hr⟩)
    · exact wellFormed.of_sublist ((List.sublist_flatten_of_mem hrules).map _)
    · rw [hflat]
      exact (ofNamed_eq_ok_iff hsymbols).mpr ⟨hstart, h⟩

end Grammar

/-! ## Step by step -/

namespace DefinitionStep

/-- The script that takes all steps, up to the first that is refused. -/
def takeAll : List DefinitionStep → DefinitionM Unit
  | [] => return
  | step :: rest => do
    let _ ← step.run
    takeAll rest

/-- The step that gives a rule. -/
def ofRule (r : Rule) : DefinitionStep := .rule r.name r.head r.body.toList

variable {d d' : Definition}

theorem run_takeAll_cons (step : DefinitionStep) (rest : List DefinitionStep) (d : Definition) :
    (takeAll (step :: rest)).run d =
      match step.run.run d with
      | (.error e, d') => (.error e, d')
      | (.ok _, d') => (takeAll rest).run d' := by
  rw [takeAll, DefinitionM.run_bind]
  rcases step.run.run d with ⟨e | answer, d'⟩ <;> rfl

theorem run_takeAll_append {front back : List DefinitionStep} :
    (takeAll (front ++ back)).run d = (.ok (), d') ↔
      ∃ mid, (takeAll front).run d = (.ok (), mid) ∧ (takeAll back).run mid = (.ok (), d') := by
  induction front generalizing d with
  | nil =>
      constructor
      · intro h
        exact ⟨d, rfl, h⟩
      · rintro ⟨mid, h, hback⟩
        cases h
        exact hback
  | cons step rest ih =>
      rw [List.cons_append, run_takeAll_cons, run_takeAll_cons]
      rcases step.run.run d with ⟨e | answer, d₁⟩
      · constructor
        · intro h
          cases h
        · rintro ⟨mid, h, -⟩
          cases h
      · exact ih

theorem run_declare (s : Symbol) (d : Definition) :
    (declare s).run.run d =
      match d.declared.declare s with
      | .error e => (.error e, d)
      | .ok (i, declared) => (.ok (some i), { d with declared := declared }) := by
  rw [run, DefinitionM.run_map, DefinitionM.declare, DefinitionM.run_get_bind]
  rcases d.declared.declare s with e | ⟨i, declared⟩ <;> rfl

theorem run_ofRule (r : Rule) (d : Definition) :
    (ofRule r).run.run d =
      match addRule d.declared.symbols d.rules r with
      | .error e => (.error e, d)
      | .ok rules => (.ok (some rules.size), { d with rules := rules }) := by
  rw [ofRule, run, DefinitionM.run_map, DefinitionM.rule, DefinitionM.run_get_bind]
  rcases addRule d.declared.symbols d.rules r with e | rules <;> rfl

theorem run_start (i : SymbolId) (d : Definition) :
    (start i).run.run d =
      match Grammar.startObjection? d.declared.symbols i with
      | some e => (.error e, d)
      | none => (.ok none, { d with start := some i }) := by
  rw [run, DefinitionM.run_map, DefinitionM.startSymbol, DefinitionM.run_get_bind]
  rcases Grammar.startObjection? d.declared.symbols i with _ | e <;> rfl

theorem run_takeAll_declare {symbols : List Symbol} :
    (takeAll (symbols.map .declare)).run d = (.ok (), d') ↔
      ∃ declared, d.declared.declareAll symbols = .ok declared ∧
        d' = { d with declared := declared } := by
  induction symbols generalizing d with
  | nil =>
      constructor
      · intro h
        cases h
        exact ⟨_, rfl, rfl⟩
      · rintro ⟨declared, h, rfl⟩
        cases h
        rfl
  | cons s rest ih =>
      rw [List.map_cons, run_takeAll_cons, run_declare, Declarations.declareAll]
      rcases d.declared.declare s with e | ⟨i, declared⟩
      · constructor
        · intro h
          cases h
        · rintro ⟨declared, h, -⟩
          cases h
      · exact ih

theorem run_takeAll_ofRule {rules : List Rule} :
    (takeAll (rules.map ofRule)).run d = (.ok (), d') ↔
      ∃ all, addRules d.declared.symbols d.rules rules = .ok all ∧
        d' = { d with rules := all } := by
  induction rules generalizing d with
  | nil =>
      constructor
      · intro h
        cases h
        exact ⟨_, rfl, rfl⟩
      · rintro ⟨all, h, rfl⟩
        cases h
        rfl
  | cons r rest ih =>
      rw [List.map_cons, run_takeAll_cons, run_ofRule, addRules]
      rcases addRule d.declared.symbols d.rules r with e | all
      · constructor
        · intro h
          cases h
        · rintro ⟨all, h, -⟩
          cases h
      · exact ih

theorem run_takeAll_start {i : SymbolId} :
    (takeAll [start i]).run d = (.ok (), d') ↔
      Grammar.startObjection? d.declared.symbols i = none ∧ d' = { d with start := some i } := by
  rw [run_takeAll_cons, run_start]
  rcases Grammar.startObjection? d.declared.symbols i with _ | e
  · constructor
    · intro h
      cases h
      exact ⟨rfl, rfl⟩
    · rintro ⟨-, rfl⟩
      rfl
  · constructor
    · intro h
      cases h
    · rintro ⟨h, -⟩
      cases h

end DefinitionStep

namespace Grammar

theorem define_eq_ok_iff {script : DefinitionM Unit} {g : Grammar} :
    define script = .ok g ↔ ∃ d, script.run {} = (.ok (), d) ∧ d.finish = .ok g := by
  have hrun : script.run.run {} = script.run {} := rfl
  rw [define, hrun]
  rcases script.run {} with ⟨e | answer, d⟩
  · constructor
    · intro h
      cases h
    · rintro ⟨d', h, -⟩
      cases h
  · constructor
    · intro h
      exact ⟨d, rfl, h⟩
    · rintro ⟨d', h, hd⟩
      cases h
      exact hd

/-- The steps that declare symbols, then give rules, and pick the start symbol last, with the numbers
of the symbols for their names. -/
def stepsByNumber (symbols : List Symbol) (rules : List NamedRule) (start : String) :
    List DefinitionStep :=
  symbols.map .declare ++ (rules.map (·.numbered symbols)).map .ofRule ++
    [.start (numberOf symbols start)]

/-- The end of a script that has picked its start symbol. -/
theorem finish_eq_ok_iff {d : Definition} {i : SymbolId} (hstart : d.start = some i) {g : Grammar} :
    d.finish = .ok g ↔ ∃ v, d.declared.finish = .ok v ∧ assemble v i d.rules.toList = .ok g := by
  rw [Definition.finish, hstart, Option.some_or]
  exact except_bind_eq_ok_iff

/-- A script that is not refused has made the vocabulary, and its rules can be assembled. -/
theorem define_takeAll_outcome {symbols : List Symbol} {rules : List NamedRule} {start : String}
    {g : Grammar} :
    define (DefinitionStep.takeAll (stepsByNumber symbols rules start)) = .ok g ↔
      ∃ v, Vocabulary.ofSymbols symbols = .ok v ∧
        assemble v (numberOf symbols start) (rules.map (·.numbered symbols)) = .ok g := by
  rw [define_eq_ok_iff]
  constructor
  · rintro ⟨d, hrun, hfinish⟩
    obtain ⟨d₂, hrun, hstart⟩ := DefinitionStep.run_takeAll_append.mp hrun
    obtain ⟨d₁, hdeclare, hrules⟩ := DefinitionStep.run_takeAll_append.mp hrun
    obtain ⟨declared, hdeclared, rfl⟩ := DefinitionStep.run_takeAll_declare.mp hdeclare
    obtain ⟨all, hall, rfl⟩ := DefinitionStep.run_takeAll_ofRule.mp hrules
    obtain ⟨-, rfl⟩ := DefinitionStep.run_takeAll_start.mp hstart
    obtain ⟨v, hv, hassemble⟩ := (finish_eq_ok_iff rfl).mp hfinish
    obtain ⟨rfl, -⟩ := (addRules_eq_ok_iff (.empty _)).mp hall
    rw [Array.empty_append] at hassemble
    exact ⟨v, Vocabulary.ofSymbols_eq_ok_iff.mpr ⟨declared, hdeclared, hv⟩, hassemble⟩
  · rintro ⟨v, hv, hassemble⟩
    obtain ⟨declared, hdeclared, hfinish⟩ := Vocabulary.ofSymbols_eq_ok_iff.mp hv
    obtain ⟨nonterminal, wellFormed, -⟩ := assemble_eq_ok_iff.mp hassemble
    have hsymbols : v.symbols = declared.symbols :=
      congrArg Declarations.symbols (Declarations.declared_of_finish hfinish)
    -- what is assembled in the end was checked before, over the same symbols
    have hstart := startObjection?_eq_none_iff.mpr nonterminal
    rw [hsymbols] at wellFormed hstart
    have hall := (addRules_eq_ok_iff (.empty declared.symbols)).mpr
      ⟨(Array.empty_append).symm, wellFormed⟩
    refine ⟨_, DefinitionStep.run_takeAll_append.mpr ⟨_, DefinitionStep.run_takeAll_append.mpr
      ⟨_, DefinitionStep.run_takeAll_declare.mpr ⟨declared, hdeclared, rfl⟩,
        DefinitionStep.run_takeAll_ofRule.mpr ⟨_, hall, rfl⟩⟩,
      DefinitionStep.run_takeAll_start.mpr ⟨hstart, rfl⟩⟩, ?_⟩
    exact (finish_eq_ok_iff rfl).mpr ⟨v, hfinish, hassemble⟩

/-- **The two ways agree.** In whatever groups the rules are built, what comes of symbols, rules and a
start symbol by their names is a grammar just if all names are declared and the script that declares the
symbols, gives the rules by number and then picks the start symbol defines one, and it is the same
grammar. -/
theorem ofGroups_eq_ok_iff (symbols : List Symbol) (groups : List (List NamedRule)) (start : String)
    (g : Grammar) :
    ofGroups symbols groups start = .ok g ↔ NamesDeclared symbols groups.flatten start ∧
      define (DefinitionStep.takeAll (stepsByNumber symbols groups.flatten start)) = .ok g := by
  rw [ofGroups_outcome, define_takeAll_outcome]

/-- Rules of two groups are let in together, unless they clash. -/
example :
    let symbols := [⟨.terminal, "a"⟩, ⟨.endOfInput, "end"⟩, ⟨.nonterminal, "S"⟩]
    (ofGroups symbols [[⟨"ONE", "S", ["a"]⟩], [], [⟨"NONE", "S", []⟩]] "S").isOk = true ∧
      (ofGroups symbols [[⟨"ONE", "S", ["a"]⟩], [⟨"ONE", "S", []⟩]] "S").isOk = false := by
  decide +kernel

end Grammar

end ShiftReduce
