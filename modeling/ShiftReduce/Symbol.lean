/-!
# Symbols

What a grammar is written in: terminals, which stand for themselves in the input, nonterminals,
which rules expand, and one marker for the end of the input.
-/

namespace ShiftReduce

/-- The number of a symbol, counted from 0 in the order of declaration. -/
abbrev SymbolId := Nat

inductive SymbolKind where
  | terminal
  | nonterminal
  | endOfInput
deriving DecidableEq, Repr

/-- A named symbol of a grammar. -/
structure Symbol where
  kind : SymbolKind
  name : String
deriving DecidableEq, Repr

namespace Symbol

/-- Whether the symbol may stand in the input, the end marker included. -/
def isTerminal (s : Symbol) : Bool := s.kind ≠ .nonterminal

def isNonterminal (s : Symbol) : Bool := s.kind = .nonterminal

def isEndOfInput (s : Symbol) : Bool := s.kind = .endOfInput

end Symbol

/-- A symbol as an error names it: by its name where one is known, else by its number. -/
inductive SymbolRef where
  | named (name : String)
  | numbered (id : SymbolId)
deriving DecidableEq, Repr

/-- The number of a symbol, as messages write it. -/
def SymbolId.render (id : SymbolId) : String :=
  "SymbolID \x7b raw: " ++ toString id ++ " \x7d"

def SymbolRef.render : SymbolRef → String
  | .named name => name
  | .numbered id => SymbolId.render id

end ShiftReduce
