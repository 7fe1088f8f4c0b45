import ShiftReduce.Grammar.Basic
import ShiftReduce.OrderedSet

/-!
# Nullable, first and follow

For each symbol of a grammar: whether it can vanish, which terminals can begin what it derives,
and which terminals can stand behind it. The sets grow in passes over the rules. A pass looks at
the rules in order, and what it finds at one rule already counts at the next; it reports whether it
found anything. `FirstFollow.compute` repeats each kind of pass until it finds nothing more.

The accepting rule takes no part: the end marker enters through the seed, as what follows the
start symbol.
-/

namespace ShiftReduce

abbrev TerminalSet := OrderedSet SymbolId

/-- What is known of each symbol so far, by its number. -/
structure FirstFollow where
  nullable : Array Bool
  first : Array TerminalSet
  follow : Array TerminalSet
deriving DecidableEq

namespace FirstFollow

/-- A terminal begins itself, and the end marker follows the start symbol. -/
def seed (g : Grammar) : FirstFollow where
  nullable := Array.replicate g.vocabulary.size false
  first := g.vocabulary.symbols.mapIdx fun i s =>
    if s.isTerminal then OrderedSet.singleton i else ∅
  follow := (Array.replicate g.vocabulary.size ∅).setIfInBounds g.start
    (OrderedSet.singleton g.endOfInput)

/-! ## Queries -/

def isNullable (s : FirstFollow) (x : SymbolId) : Bool := s.nullable[x]?.getD false

def firstSet (s : FirstFollow) (x : SymbolId) : TerminalSet := s.first[x]?.getD ∅

def followSet (s : FirstFollow) (x : SymbolId) : TerminalSet := s.follow[x]?.getD ∅

/-- Whether every symbol of the sequence can vanish. -/
def nullableSeq (s : FirstFollow) (xs : List SymbolId) : Bool := xs.all s.isNullable

/-- The terminals that can begin what a sequence derives: those of its symbols up to the first that
cannot vanish. -/
def firstOf (s : FirstFollow) : List SymbolId → TerminalSet
  | [] => ∅
  | x :: rest => if s.isNullable x then s.firstSet x ∪ s.firstOf rest else s.firstSet x

/-! ## Growth

Each of these adds to what is known and tells whether it was news. -/

def addNullable (s : FirstFollow) (x : SymbolId) : FirstFollow × Bool :=
  if s.isNullable x then (s, false)
  else ({ s with nullable := s.nullable.setIfInBounds x true }, true)

def addFirst (s : FirstFollow) (x : SymbolId) (ts : TerminalSet) : FirstFollow × Bool :=
  let grown := s.firstSet x ∪ ts
  if grown = s.firstSet x then (s, false)
  else ({ s with first := s.first.setIfInBounds x grown }, true)

def addFollow (s : FirstFollow) (x : SymbolId) (ts : TerminalSet) : FirstFollow × Bool :=
  let grown := s.followSet x ∪ ts
  if grown = s.followSet x then (s, false)
  else ({ s with follow := s.follow.setIfInBounds x grown }, true)

/-! ## What one rule tells -/

/-- The head of a rule vanishes if its body does. -/
def nullableByRule (s : FirstFollow) (r : Rule) : FirstFollow × Bool :=
  if s.nullableSeq r.body.toList then s.addNullable r.head else (s, false)

/-- What begins the body of a rule begins its head. -/
def firstByRule (s : FirstFollow) (r : Rule) : FirstFollow × Bool :=
  s.addFirst r.head (s.firstOf r.body.toList)

/-- What can stand behind a symbol of a body of `head`, given the symbols after it. -/
def behind (s : FirstFollow) (head : SymbolId) (rest : List SymbolId) : TerminalSet :=
  if s.nullableSeq rest then s.firstOf rest ∪ s.followSet head else s.firstOf rest

/-- Behind each symbol of a body stands what begins the symbols after it and, where these vanish,
what follows the head. -/
def followByBody (s : FirstFollow) (head : SymbolId) : List SymbolId → FirstFollow × Bool
  | [] => (s, false)
  | x :: rest =>
    let (s, here) := s.addFollow x (s.behind head rest)
    let (s, later) := s.followByBody head rest
    (s, here || later)

def followByRule (s : FirstFollow) (r : Rule) : FirstFollow × Bool :=
  s.followByBody r.head r.body.toList

/-! ## Passes -/

/-- Look at rules one after the other. -/
def overRules (byRule : FirstFollow → Rule → FirstFollow × Bool) (s : FirstFollow) :
    List Rule → FirstFollow × Bool
  | [] => (s, false)
  | r :: rest =>
    let (s, here) := byRule s r
    let (s, later) := overRules byRule s rest
    (s, here || later)

def updateNullable (g : Grammar) (s : FirstFollow) : FirstFollow × Bool :=
  overRules nullableByRule s g.rules.toList

def updateFirst (g : Grammar) (s : FirstFollow) : FirstFollow × Bool :=
  overRules firstByRule s g.rules.toList

def updateFollow (g : Grammar) (s : FirstFollow) : FirstFollow × Bool :=
  overRules followByRule s g.rules.toList

/-- Repeat a pass until it finds nothing, at most `fuel` times. -/
def repeatPass (pass : FirstFollow → FirstFollow × Bool) : Nat → FirstFollow → FirstFollow
  | 0, s => s
  | fuel + 1, s =>
    match pass s with
    | (s, true) => repeatPass pass fuel s
    | (s, false) => s

/-- More passes than can find anything: each adds a symbol to one of the sets. -/
def maxPasses (g : Grammar) : Nat := g.vocabulary.size * g.vocabulary.size + 1

/-- The finished sets. -/
def compute (g : Grammar) : FirstFollow :=
  seed g
    |> repeatPass (updateNullable g) (maxPasses g)
    |> repeatPass (updateFirst g) (maxPasses g)
    |> repeatPass (updateFollow g) (maxPasses g)

/-- A single step of an analysis that is driven by hand. -/
inductive Step where
  | nullable
  | first
  | follow
  /-- Start over and finish all sets; this always counts as news. -/
  | compute
deriving DecidableEq, Repr

def Step.run (g : Grammar) : Step → FirstFollow → FirstFollow × Bool
  | .nullable, s => s.updateNullable g
  | .first, s => s.updateFirst g
  | .follow, s => s.updateFollow g
  | .compute, _ => (FirstFollow.compute g, true)

/-- The sets after steps from the seed. -/
def ofSteps (g : Grammar) (steps : List Step) : FirstFollow :=
  steps.foldl (fun s step => (step.run g s).1) (seed g)

end FirstFollow

end ShiftReduce
