import ShiftReduce.Grammar.Basic

/-!
# Grammars by name

Rules whose symbols are given by name, over a finished vocabulary.
-/

namespace ShiftReduce

/-- A rule with its symbols by name. -/
structure NamedRule where
  name : String
  head : String
  body : List String
deriving DecidableEq, Repr

namespace Vocabulary

/-- The number behind a name that a rule uses. -/
def resolveName (v : Vocabulary) (rule name : String) : Except GrammarError SymbolId :=
  match v.lookup? name with
  | some i => .ok i
  | none => .error (.undeclaredSymbol rule (.named name))

/-- The rule with numbers for names; the head is looked up first, then the body in order. -/
def resolve (v : Vocabulary) (r : NamedRule) : Except GrammarError Rule := do
  let head ← v.resolveName r.name r.head
  let body ← r.body.mapM (v.resolveName r.name)
  return { name := r.name, head := head, body := body.toArray }

/-- The rules that follow the rules `built`, each checked beside those before it. -/
def buildRulesOnto (v : Vocabulary) (built : Array Rule) :
    List NamedRule → Except GrammarError (Array Rule)
  | [] => .ok built
  | r :: rest => do
    let rule ← v.resolve r
    let built ← addRule v.symbols built rule
    v.buildRulesOnto built rest

/-- The rules of a list, numbered in their order. -/
def buildRules (v : Vocabulary) (rules : List NamedRule) : Except GrammarError (Array Rule) :=
  v.buildRulesOnto #[] rules

end Vocabulary

/-- The grammar of a vocabulary, the name of its start symbol, and rules. -/
def Grammar.ofNamed (v : Vocabulary) (start : String) (rules : List Rule) :
    Except GrammarError Grammar :=
  match v.lookup? start with
  | some i => Grammar.assemble v i rules
  | none => .error (.unknownStartSymbol (.named start))

end ShiftReduce
