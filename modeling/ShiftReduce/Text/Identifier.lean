import ShiftReduce.Text.IdentifierTable
import ShiftReduce.Text.RangeTable

/-!
# Identifiers

The names that symbols may have: an underscore or a letter, then letters, digits, underscores and
marks, for the letters and marks of every script.
-/

namespace ShiftReduce.Text

/-- Whether an identifier may begin with the character. -/
def isIdentifierStart (c : Char) : Bool := c = '_' || inRanges c.toNat xidStart

/-- Whether the character may stand in an identifier after the first place. -/
def isIdentifierPart (c : Char) : Bool := inRanges c.toNat xidContinue

/-- Whether the text is an identifier. -/
def isIdentifier (s : String) : Bool :=
  match s.toList with
  | [] => false
  | c :: rest => isIdentifierStart c && rest.all isIdentifierPart

example : isIdentifier "INSTRUCTION_2" = true := by decide +kernel
example : isIdentifier "2nd" = false := by decide +kernel
example : isIdentifier "" = false := by decide +kernel

end ShiftReduce.Text
