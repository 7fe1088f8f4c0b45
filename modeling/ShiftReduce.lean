import ShiftReduce.Action
import ShiftReduce.Assembly.CommandLine
import ShiftReduce.Assembly.FileTree
import ShiftReduce.Assembly.Instruction
import ShiftReduce.Assembly.Lexeme
import ShiftReduce.Assembly.Line
import ShiftReduce.Assembly.LineGrammar
import ShiftReduce.Assembly.Operation
import ShiftReduce.Assembly.Report
import ShiftReduce.Assembly.Source
import ShiftReduce.Automaton.Basic
import ShiftReduce.Automaton.Item
import ShiftReduce.Automaton.ItemSet
import ShiftReduce.Automaton.Printer
import ShiftReduce.Grammar.Basic
import ShiftReduce.Grammar.Definition
import ShiftReduce.Grammar.Error
import ShiftReduce.Grammar.FirstFollow
import ShiftReduce.Grammar.Named
import ShiftReduce.Grammar.Printer
import ShiftReduce.Main
import ShiftReduce.OrderedSet
import ShiftReduce.Parser.Engine
import ShiftReduce.Parser.Error
import ShiftReduce.Parser.Table
import ShiftReduce.Proofs.Assembly.Columns
import ShiftReduce.Proofs.Assembly.Expected
import ShiftReduce.Proofs.Assembly.LongestMatch
import ShiftReduce.Proofs.Assembly.Margins
import ShiftReduce.Proofs.Assembly.Pieces
import ShiftReduce.Proofs.Automaton.Canonical
import ShiftReduce.Proofs.Automaton.Closure
import ShiftReduce.Proofs.Automaton.Construction
import ShiftReduce.Proofs.Automaton.Discovery
import ShiftReduce.Proofs.Automaton.ItemSet
import ShiftReduce.Proofs.Automaton.LastState
import ShiftReduce.Proofs.Automaton.Overflow
import ShiftReduce.Proofs.Automaton.Path
import ShiftReduce.Proofs.Automaton.Renumbering
import ShiftReduce.Proofs.Automaton.ValidItems
import ShiftReduce.Proofs.Grammar.Authoring
import ShiftReduce.Proofs.Grammar.Definition
import ShiftReduce.Proofs.Grammar.Derivation
import ShiftReduce.Proofs.Grammar.DerivedFacts
import ShiftReduce.Proofs.Grammar.FirstFollow
import ShiftReduce.Proofs.Grammar.Passes
import ShiftReduce.Proofs.Grammar.Permutation
import ShiftReduce.Proofs.LeafIterator
import ShiftReduce.Proofs.Parser.Driver
import ShiftReduce.Proofs.Parser.Lookahead
import ShiftReduce.Proofs.Parser.Moves
import ShiftReduce.Proofs.Parser.Renumbering
import ShiftReduce.Proofs.Parser.Soundness
import ShiftReduce.Proofs.Parser.UnreadInput
import ShiftReduce.Proofs.PushBack
import ShiftReduce.Proofs.SlrTable.Ambiguity
import ShiftReduce.Proofs.SlrTable.Completeness
import ShiftReduce.Proofs.SlrTable.Conflicts
import ShiftReduce.Proofs.SlrTable.CorrectPrefix
import ShiftReduce.Proofs.SlrTable.Entries
import ShiftReduce.Proofs.SlrTable.Faultless
import ShiftReduce.Proofs.SlrTable.Listed
import ShiftReduce.Proofs.SlrTable.Refinement
import ShiftReduce.Proofs.SlrTable.RuleOrder
import ShiftReduce.Proofs.SlrTable.Stages
import ShiftReduce.Proofs.SlrTable.Subtable
import ShiftReduce.Proofs.SlrTable.Termination
import ShiftReduce.Proofs.SlrTable.ViablePrefix
import ShiftReduce.Proofs.Source
import ShiftReduce.Proofs.Tree
import ShiftReduce.PushBack
import ShiftReduce.Row
import ShiftReduce.Rule
import ShiftReduce.SlrTable.Basic
import ShiftReduce.SlrTable.ParsePrinter
import ShiftReduce.SlrTable.Parsing
import ShiftReduce.SlrTable.Printer
import ShiftReduce.Symbol
import ShiftReduce.Text.Blank
import ShiftReduce.Text.Decimal
import ShiftReduce.Text.GlyphTable
import ShiftReduce.Text.Identifier
import ShiftReduce.Text.IdentifierTable
import ShiftReduce.Text.Quoted
import ShiftReduce.Text.RangeTable
import ShiftReduce.Tree
import ShiftReduce.Vocabulary
import ShiftReduce.Proofs.Assembly.Partition
import ShiftReduce.Proofs.Assembly.LineSentences
import ShiftReduce.Proofs.Assembly.WrittenForm
import ShiftReduce.Proofs.Assembly.Decision
import ShiftReduce.Proofs.Assembly.Printing
