import ShiftReduce.Text.RangeTable

/-!
# Blanks

The characters that count as blank around a piece of code: those with the property `White_Space`
of the Unicode standard.
-/

namespace ShiftReduce.Text

/-- The code points with the property `White_Space`. -/
def whiteSpace : List (Nat × Nat) :=
  [(0x09, 0x0D), (0x20, 0x20), (0x85, 0x85), (0xA0, 0xA0), (0x1680, 0x1680), (0x2000, 0x200A),
   (0x2028, 0x2029), (0x202F, 0x202F), (0x205F, 0x205F), (0x3000, 0x3000)]

/-- Whether the character is blank. -/
def isBlank (c : Char) : Bool := inRanges c.toNat whiteSpace

/-- The text without the blanks before its first and after its last other character. -/
def trim (cs : List Char) : List Char :=
  ((cs.dropWhile isBlank).reverse.dropWhile isBlank).reverse

example : trim " \t a b\u3000".toList = "a b".toList := by decide +kernel

end ShiftReduce.Text
