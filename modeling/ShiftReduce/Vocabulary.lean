import ShiftReduce.Grammar.Error
import ShiftReduce.Text.Identifier
import Std.Data.TreeMap

/-!
# Vocabularies

The symbols of a grammar in the order of their declaration. A declaration is refused if its name
is no identifier or is taken, if it would be a second end marker, or if all numbers are used up; a
vocabulary is complete once it has its end marker.

Names are found through a search tree. What it answers is fixed by the list of symbols alone
(`Declarations.numbers_iff`), so no two symbols share a name.
-/

namespace ShiftReduce

/-- How many symbols there may be. -/
def maxSymbols : Nat := 65536

/-! ## Declarations -/

theorem Declarations.numbers_iff_empty (name : String) (i : SymbolId) :
    (∅ : Std.TreeMap String SymbolId)[name]? = some i ↔
      (#[] : Array Symbol)[i]?.map Symbol.name = some name := by simp

theorem Declarations.endOfInput_iff_empty (i : SymbolId) :
    (none : Option SymbolId) = some i ↔
      (#[] : Array Symbol)[i]?.map Symbol.kind = some .endOfInput := by simp

/-- The symbols declared so far. -/
structure Declarations where
  symbols : Array Symbol := #[]
  /-- The number of the symbol with a given name. -/
  numbers : Std.TreeMap String SymbolId := ∅
  /-- The number of the end marker, once it is declared. -/
  endOfInput : Option SymbolId := none
  numbers_iff : ∀ (name : String) (i : SymbolId),
    numbers[name]? = some i ↔ symbols[i]?.map Symbol.name = some name := by
      exact Declarations.numbers_iff_empty
  endOfInput_iff : ∀ i : SymbolId,
    endOfInput = some i ↔ symbols[i]?.map Symbol.kind = some .endOfInput := by
      exact Declarations.endOfInput_iff_empty
  size_le : symbols.size ≤ maxSymbols := by exact Nat.zero_le maxSymbols

namespace Declarations

instance : Inhabited Declarations := ⟨{}⟩

theorem numbers_iff_push {symbols : Array Symbol} {numbers : Std.TreeMap String SymbolId}
    {s : Symbol}
    (old : ∀ (name : String) (i : SymbolId),
      numbers[name]? = some i ↔ symbols[i]?.map Symbol.name = some name)
    (fresh : numbers[s.name]? = none) (name : String) (i : SymbolId) :
    (numbers.insert s.name symbols.size)[name]? = some i ↔
      (symbols.push s)[i]?.map Symbol.name = some name := by
  have old := old name i
  rw [Std.TreeMap.getElem?_insert, Array.getElem?_push]
  by_cases hi : i = symbols.size
  · subst hi
    by_cases hn : s.name = name
    · simp [hn]
    · simp at old
      simp [hn, old]
  · by_cases hn : s.name = name
    · subst hn
      simp [fresh] at old
      simp [hi, Ne.symm hi]
      exact fun s' h => by simpa [h] using old
    · simp [hi, hn, old]

theorem endOfInput_iff_push {symbols : Array Symbol} {endOfInput : Option SymbolId} {s : Symbol}
    (old : ∀ i : SymbolId,
      endOfInput = some i ↔ symbols[i]?.map Symbol.kind = some .endOfInput)
    (single : s.kind = .endOfInput → endOfInput = none) (i : SymbolId) :
    (if s.kind = .endOfInput then some symbols.size else endOfInput) = some i ↔
      (symbols.push s)[i]?.map Symbol.kind = some .endOfInput := by
  have old := old i
  rw [Array.getElem?_push]
  by_cases hi : i = symbols.size
  · subst hi
    by_cases hk : s.kind = .endOfInput
    · simp [hk]
    · simp at old
      simp [hk, old]
  · by_cases hk : s.kind = .endOfInput
    · simp [single hk] at old
      simp [hk, hi, Ne.symm hi]
      exact fun s' h => by simpa [h] using old
    · simp [hk, hi, old]

/-- One more symbol, under the next number. -/
def push (d : Declarations) (s : Symbol) (fresh : d.numbers[s.name]? = none)
    (single : s.kind = .endOfInput → d.endOfInput = none) (room : d.symbols.size < maxSymbols) :
    Declarations :=
  let i := d.symbols.size
  { symbols := d.symbols.push s
    numbers := d.numbers.insert s.name i
    endOfInput := if s.kind = .endOfInput then some i else d.endOfInput
    numbers_iff := numbers_iff_push d.numbers_iff fresh
    endOfInput_iff := endOfInput_iff_push d.endOfInput_iff single
    size_le := by simpa [Nat.succ_le_iff] using room }

/-- The name of a declared symbol; no text for a number that is not in use. -/
def nameOf (d : Declarations) (i : SymbolId) : String :=
  match d.symbols[i]? with
  | some s => s.name
  | none => ""

/-- Declare one more symbol. The answer holds its number. -/
def declare (d : Declarations) (s : Symbol) : Except GrammarError (SymbolId × Declarations) :=
  if ¬ Text.isIdentifier s.name then .error (.invalidName s.name)
  else if fresh : d.numbers[s.name]? = none then
    if single : s.kind = .endOfInput → d.endOfInput = none then
      let i := d.symbols.size
      if room : i < maxSymbols then .ok (i, d.push s fresh single room)
      else .error .tooManySymbols
    else .error (.duplicateEndOfInput (d.endOfInput.elim "" d.nameOf) s.name)
  else .error (.duplicateSymbol s.name)

/-- Declare symbols one after the other, up to the first that is refused. -/
def declareAll (d : Declarations) : List Symbol → Except GrammarError Declarations
  | [] => .ok d
  | s :: rest =>
    match d.declare s with
    | .error e => .error e
    | .ok (_, d') => d'.declareAll rest

end Declarations

/-! ## Vocabularies -/

/-- The closed set of symbols of a grammar. -/
structure Vocabulary where
  declared : Declarations
  endOfInput : SymbolId
  declared_endOfInput : declared.endOfInput = some endOfInput

/-- The vocabulary of the declared symbols, which need an end marker among them. -/
def Declarations.finish (d : Declarations) : Except GrammarError Vocabulary :=
  match h : d.endOfInput with
  | some i => .ok ⟨d, i, h⟩
  | none => .error .missingEndOfInput

namespace Vocabulary

/-- The vocabulary of a list of symbols, numbered in their order. -/
def ofSymbols (symbols : List Symbol) : Except GrammarError Vocabulary :=
  match (default : Declarations).declareAll symbols with
  | .error e => .error e
  | .ok d => d.finish

def symbols (v : Vocabulary) : Array Symbol := v.declared.symbols

def size (v : Vocabulary) : Nat := v.symbols.size

/-- The symbol with a number. -/
def symbol? (v : Vocabulary) (i : SymbolId) : Option Symbol := v.symbols[i]?

/-- The number of the symbol with a name. -/
def lookup? (v : Vocabulary) (name : String) : Option SymbolId := v.declared.numbers[name]?

/-- The name of a symbol. -/
def nameOf (v : Vocabulary) (i : SymbolId) : String := v.declared.nameOf i

def isNonterminal (v : Vocabulary) (i : SymbolId) : Bool :=
  v.symbol? i |>.any Symbol.isNonterminal

/-- The numbers in use, in ascending order. -/
def ids (v : Vocabulary) : List SymbolId := List.range v.size

theorem lookup?_eq_some_iff {v : Vocabulary} {name : String} {i : SymbolId} :
    v.lookup? name = some i ↔ (v.symbol? i).map Symbol.name = some name :=
  v.declared.numbers_iff name i

theorem nameOf_of_lookup? {v : Vocabulary} {name : String} {i : SymbolId}
    (h : v.lookup? name = some i) : v.nameOf i = name := by
  obtain ⟨s, hs, hname⟩ := Option.map_eq_some_iff.mp (lookup?_eq_some_iff.mp h)
  have hsymbol : v.declared.symbols[i]? = some s := hs
  rw [nameOf, Declarations.nameOf, hsymbol]
  exact hname

theorem eq_endOfInput_iff {v : Vocabulary} {i : SymbolId} :
    i = v.endOfInput ↔ (v.symbol? i).map Symbol.kind = some .endOfInput := by
  have := v.declared.endOfInput_iff i
  rw [v.declared_endOfInput, Option.some.injEq] at this
  exact eq_comm.trans this

theorem isNonterminal_iff {v : Vocabulary} {i : SymbolId} :
    v.isNonterminal i = true ↔ (v.symbol? i).map Symbol.kind = some .nonterminal := by
  cases h : v.symbol? i <;> simp [isNonterminal, h, Symbol.isNonterminal]

end Vocabulary

end ShiftReduce
