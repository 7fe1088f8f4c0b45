import ShiftReduce.Grammar.Error

/-!
# Rules

A rule expands its head, a nonterminal, to its body. A list of rules grows by one rule at a time,
and a rule is let in if its symbols are declared and neither its name nor its production is there
already. `Rule.objection?` gives the first reason against a rule; there is none exactly when the
rule is admissible (`objection?_eq_none_iff`), and admissible rules keep the list well formed
(`WellFormedRules.push`).
-/

namespace ShiftReduce

/-- The number of a rule: 0 for the accepting rule, from 1 on for the rules that were given. -/
abbrev RuleId := Nat

/-- How many rules may be given. -/
def maxRules : Nat := 65535

structure Rule where
  name : String
  head : SymbolId
  body : Array SymbolId
deriving DecidableEq, Repr

namespace Rule

/-- What the rule says, whatever it is called. -/
def production (r : Rule) : SymbolId × Array SymbolId := (r.head, r.body)

/-- The pairs of places `i < j` of a list that hold one production under two rules. -/
def repetitions (rules : List Rule) : List (Nat × Nat) :=
  let numbered := rules.zipIdx
  numbered.flatMap fun (r, i) =>
    numbered.filterMap fun (q, j) =>
      if i < j ∧ r.production = q.production then some (i, j) else none

/-- The productions of a list of rules, each once. -/
def productions (rules : List Rule) : List (SymbolId × Array SymbolId) :=
  (rules.map production).eraseDups

/-! ## Admission -/

/-- What speaks against the head of a rule. -/
def headObjection? (symbols : Array Symbol) (r : Rule) : Option GrammarError :=
  match symbols[r.head]? with
  | none => some (.undeclaredSymbol r.name (.numbered r.head))
  | some s => if s.kind = .nonterminal then none else some (.headNotNonterminal r.name s.name)

/-- The first symbol of the body that is not declared. -/
def undeclaredChild? (symbols : Array Symbol) (r : Rule) : Option SymbolId :=
  r.body.find? fun x => symbols.size ≤ x

/-- The first symbol of the body that is the end marker. -/
def endMarkerChild? (symbols : Array Symbol) (r : Rule) : Option Symbol :=
  r.body.findSome? fun x => symbols[x]?.filter (·.kind = .endOfInput)

/-- What speaks against a rule beside one other rule. -/
def clash? (r other : Rule) : Option GrammarError :=
  if other.name = r.name then some (.duplicateRuleName r.name)
  else if other.production = r.production then some (.duplicateProduction r.name other.name)
  else none

/-- The first reason to refuse a rule that follows the rules `existing`. -/
def objection? (symbols : Array Symbol) (existing : Array Rule) (r : Rule) : Option GrammarError :=
  r.headObjection? symbols |>.or
    ((r.undeclaredChild? symbols).map fun x => .undeclaredSymbol r.name (.numbered x)) |>.or
    ((r.endMarkerChild? symbols).map fun s => .endOfInputInRule r.name s.name) |>.or
    (existing.findSome? r.clash?)

/-- What a rule needs: a nonterminal as its head, declared symbols other than the end marker in its
body, and a name and a production of its own. -/
structure Admissible (symbols : Array Symbol) (existing : Array Rule) (r : Rule) : Prop where
  head : symbols[r.head]?.map Symbol.kind = some .nonterminal
  body : ∀ x ∈ r.body, ∃ s, symbols[x]? = some s ∧ s.kind ≠ .endOfInput
  name : ∀ q ∈ existing, q.name ≠ r.name
  production : ∀ q ∈ existing, q.production ≠ r.production

theorem headObjection?_eq_none_iff {symbols : Array Symbol} {r : Rule} :
    r.headObjection? symbols = none ↔ symbols[r.head]?.map Symbol.kind = some .nonterminal := by
  unfold headObjection?
  cases symbols[r.head]? with
  | none => simp
  | some s => simp

theorem children_eq_none_iff {symbols : Array Symbol} {r : Rule} :
    r.undeclaredChild? symbols = none ∧ r.endMarkerChild? symbols = none ↔
      ∀ x ∈ r.body, ∃ s, symbols[x]? = some s ∧ s.kind ≠ .endOfInput := by
  simp only [undeclaredChild?, endMarkerChild?, Array.find?_eq_none, Array.findSome?_eq_none_iff,
    ← forall_and]
  refine forall_congr' fun x => ?_
  by_cases hx : x < symbols.size
  · simp [hx, Option.filter]
  · simp [hx]

theorem clash?_eq_none_iff {r q : Rule} :
    r.clash? q = none ↔ q.name ≠ r.name ∧ q.production ≠ r.production := by
  unfold clash?
  split
  · simp [*]
  · split <;> simp [*]

theorem objection?_eq_none_iff {symbols : Array Symbol} {existing : Array Rule} {r : Rule} :
    r.objection? symbols existing = none ↔ r.Admissible symbols existing := by
  simp only [objection?, Option.or_eq_none_iff, headObjection?_eq_none_iff,
    Option.map_eq_none_iff, Array.findSome?_eq_none_iff, clash?_eq_none_iff]
  constructor
  · rintro ⟨⟨⟨head, declared⟩, inner⟩, own⟩
    exact ⟨head, children_eq_none_iff.1 ⟨declared, inner⟩, fun q hq => (own q hq).1,
      fun q hq => (own q hq).2⟩
  · rintro ⟨head, body, name, production⟩
    have children := children_eq_none_iff.2 body
    exact ⟨⟨⟨head, children.1⟩, children.2⟩, fun q hq => ⟨name q hq, production q hq⟩⟩

end Rule

/-! ## Lists of rules -/

/-- Rules with declared symbols, no end marker in a body, and no name or production twice. -/
structure WellFormedRules (symbols : Array Symbol) (rules : Array Rule) : Prop where
  head : ∀ r ∈ rules, symbols[r.head]?.map Symbol.kind = some .nonterminal
  body : ∀ r ∈ rules, ∀ x ∈ r.body, ∃ s, symbols[x]? = some s ∧ s.kind ≠ .endOfInput
  names : rules.toList.Pairwise fun q r => q.name ≠ r.name
  productions : rules.toList.Pairwise fun q r => q.production ≠ r.production
  size_le : rules.size ≤ maxRules

namespace WellFormedRules

theorem empty (symbols : Array Symbol) : WellFormedRules symbols #[] where
  head := by simp
  body := by simp
  names := by simp
  productions := by simp
  size_le := by simp

theorem push {symbols : Array Symbol} {rules : Array Rule} {r : Rule}
    (old : WellFormedRules symbols rules) (new : r.Admissible symbols rules)
    (room : rules.size < maxRules) : WellFormedRules symbols (rules.push r) where
  head q hq := by
    rcases Array.mem_push.1 hq with hq | rfl
    · exact old.head q hq
    · exact new.head
  body q hq := by
    rcases Array.mem_push.1 hq with hq | rfl
    · exact old.body q hq
    · exact new.body
  names := by
    rw [Array.toList_push, List.pairwise_append]
    exact ⟨old.names, List.pairwise_singleton _ _, by simpa using new.name⟩
  productions := by
    rw [Array.toList_push, List.pairwise_append]
    exact ⟨old.productions, List.pairwise_singleton _ _, by simpa using new.production⟩
  size_le := by simpa [Nat.succ_le_iff] using room

end WellFormedRules

/-- Let one more rule in, or give the first reason against it. -/
def addRule (symbols : Array Symbol) (rules : Array Rule) (r : Rule) :
    Except GrammarError (Array Rule) :=
  if maxRules ≤ rules.size then .error .tooManyRules
  else
    match r.objection? symbols rules with
    | some e => .error e
    | none => .ok (rules.push r)

theorem addRule_eq_ok_iff {symbols : Array Symbol} {rules rules' : Array Rule} {r : Rule} :
    addRule symbols rules r = .ok rules' ↔
      rules.size < maxRules ∧ r.Admissible symbols rules ∧ rules' = rules.push r := by
  unfold addRule
  split
  · next full => simp [Nat.not_lt.2 full]
  · next room =>
    rw [← Rule.objection?_eq_none_iff]
    cases r.objection? symbols rules with
    | some e => simp
    | none => simp [Nat.lt_of_not_le room, eq_comm]

/-- Let rules in one after the other, up to the first that is refused. -/
def addRules (symbols : Array Symbol) (rules : Array Rule) :
    List Rule → Except GrammarError (Array Rule)
  | [] => .ok rules
  | r :: rest =>
    match addRule symbols rules r with
    | .error e => .error e
    | .ok rules' => addRules symbols rules' rest

theorem WellFormedRules.of_addRules {symbols : Array Symbol} {rules rules' : Array Rule}
    {new : List Rule} (old : WellFormedRules symbols rules)
    (h : addRules symbols rules new = .ok rules') : WellFormedRules symbols rules' := by
  induction new generalizing rules with
  | nil =>
    rw [addRules, Except.ok.injEq] at h
    exact h ▸ old
  | cons r rest ih =>
    rw [addRules] at h
    cases hr : addRule symbols rules r with
    | error e => simp [hr] at h
    | ok mid =>
      obtain ⟨room, admissible, rfl⟩ := addRule_eq_ok_iff.1 hr
      rw [hr] at h
      exact ih (old.push admissible room) h

end ShiftReduce
