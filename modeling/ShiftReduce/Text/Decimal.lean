/-!
# Decimal numbers

The numbers that digits stand for, whatever their count and with any zeros in front. Reading the
digits of a number gives the number back (`plusDecimal?_toDigits`).
-/

namespace ShiftReduce.Text

/-- The number that a text of digits stands for. -/
def decimal? (cs : List Char) : Option Nat :=
  if cs ≠ [] ∧ cs.all Char.isDigit then some (Nat.ofDigitChars 10 cs 0) else none

/-- The number that a text of digits stands for, which may follow a plus sign. -/
def plusDecimal? : List Char → Option Nat
  | '+' :: cs => decimal? cs
  | cs => decimal? cs

/-! ## Digits of numbers -/

theorem toDigits_ne_nil (n : Nat) : Nat.toDigits 10 n ≠ [] :=
  List.ne_nil_of_length_pos Nat.length_toDigits_pos

theorem isDigit_of_mem_toDigits {n : Nat} : ∀ c ∈ Nat.toDigits 10 n, c.isDigit = true :=
  fun _ hc => Nat.isDigit_of_mem_toDigits (by decide) (by decide) hc

theorem plusDecimal?_of_digits {cs : List Char} (nonempty : cs ≠ [])
    (digits : ∀ c ∈ cs, c.isDigit = true) :
    plusDecimal? cs = some (Nat.ofDigitChars 10 cs 0) := by
  have hdecimal : decimal? cs = some (Nat.ofDigitChars 10 cs 0) :=
    if_pos ⟨nonempty, List.all_eq_true.mpr digits⟩
  unfold plusDecimal?
  split
  · cases digits '+' List.mem_cons_self
  · exact hdecimal

theorem plusDecimal?_toDigits (n : Nat) : plusDecimal? (Nat.toDigits 10 n) = some n := by
  rw [plusDecimal?_of_digits (toDigits_ne_nil n) isDigit_of_mem_toDigits,
    Nat.ofDigitChars_ten_toDigits]

example : decimal? "0031".toList = some 31 := by decide +kernel
example : plusDecimal? "+7".toList = some 7 := by decide +kernel
example : plusDecimal? "+".toList = none := by decide +kernel

end ShiftReduce.Text
