import ShiftReduce.Text.GlyphTable
import ShiftReduce.Text.RangeTable

/-!
# Quoted text

Text between two marks, written so that it fits on one line and can be told apart by eye: the mark
and the backslash follow a backslash, the common controls have a letter, and any other character
without a glyph of its own is given by its code point.
-/

namespace ShiftReduce.Text

/-- Whether the character is drawn by itself. -/
def hasGlyph (c : Char) : Bool :=
  !(inRanges c.toNat graphemeExtend || inRanges c.toNat invisible)

/-- A character as it is written between two marks. -/
def escape (mark c : Char) : List Char :=
  if c = '\x00' then ['\\', '0']
  else if c = '\t' then ['\\', 't']
  else if c = '\r' then ['\\', 'r']
  else if c = '\n' then ['\\', 'n']
  else if c = '\\' || c = mark then ['\\', c]
  else if hasGlyph c then [c]
  else ['\\', 'u', '\x7b'] ++ Nat.toDigits 16 c.toNat ++ ['\x7d']

/-- A text between double quotes. -/
def quote (s : String) : String :=
  String.ofList ('"' :: s.toList.flatMap (escape '"') ++ ['"'])

/-- A character between single quotes. -/
def quoteChar (c : Char) : String :=
  String.ofList ('\'' :: escape '\'' c ++ ['\''])

example : quote "a\"b\t'" = "\"a\\\"b\\t'\"" := by decide +kernel
example : quoteChar '\'' = "'\\''" := by decide +kernel
example : escape '"' '\u200b' = ['\\', 'u', '\x7b', '2', '0', '0', 'b', '\x7d'] := by decide +kernel

end ShiftReduce.Text
