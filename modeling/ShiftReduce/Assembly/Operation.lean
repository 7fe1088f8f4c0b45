/-!
# Operations

What the machine can be told to do. An operation has a name of three letters, which may be written
in either case, and a shape that says which operands it takes. The operations come in groups, and
within a group they are numbered from the group's offset on; directives to the assembler have no
number.
-/

namespace ShiftReduce.Assembly

/-! ## Shapes -/

/-- The operands of an instruction. -/
inductive Shape where
  | bare
  | register
  /-- A register and an unsigned number of 20 bits. -/
  | registerImmediate
  /-- Three registers, and room for a signed number of 10 bits that is not written. -/
  | threeRegisters
  /-- A number of 32 bits. -/
  | long
deriving DecidableEq, Repr

namespace Shape

/-- A letter for each field of the encoded instruction. -/
def letters : Shape → String
  | .bare => ""
  | .register => "A"
  | .registerImmediate => "AI"
  | .threeRegisters => "ABCS"
  | .long => "L"

/-- The shape as messages write it. -/
def render : Shape → String
  | .bare => "<none>"
  | s => s.letters

end Shape

/-! ## Groups -/

inductive Group where
  | basic
  | combat
  | upgrade
  /-- Directives to the assembler. -/
  | pseudo
deriving DecidableEq, Repr

/-- An operation and where it stands. -/
structure Operation where
  /-- The name in upper case. -/
  name : String
  group : Group
  /-- The number that stands for the operation in an encoded instruction. -/
  code? : Option Nat
  shape : Shape
deriving DecidableEq, Repr

namespace Group

def all : List Group := [.basic, .combat, .upgrade, .pseudo]

/-- The code of the first operation of the group. -/
def offset? : Group → Option Nat
  | .basic => some 0
  | .combat => some 32
  | .upgrade => some 64
  | .pseudo => none

/-- The names of the group in the order of their codes, in runs of one shape. -/
def runs : Group → List (Shape × List String)
  | .basic => [
    (.threeRegisters, ["ADD", "SUB", "MUL", "DIV", "AND", "ORR", "XOR", "NAN", "CLZ", "CNT",
      "LSR", "LSL", "ABS", "RND", "CMP"]),
    (.registerImmediate, ["JIZ", "JNZ", "JGZ", "JLZ", "JGE", "JLE", "BIZ", "BNZ", "BGZ", "BLZ",
      "BGE", "BLE", "BLX"]),
    (.threeRegisters, ["LDR", "STR", "POP", "PSH"])]
  | .combat => [
    (.threeRegisters, ["WHO", "WHT", "QCS", "QCT", "QBP", "QCK", "GND", "WHR", "DST", "CVR",
      "DED", "SHT", "DIR", "WLK", "CRL", "SWM"]),
    (.bare, ["CAP", "LIN"]),
    (.registerImmediate, ["HID", "SAY", "RAD", "YEL", "EAR"]),
    (.threeRegisters, ["DIE", "NRT", "NRE", "EST", "SOE", "SOT", "SOW", "WST", "NRW"])]
  | .upgrade => [
    (.register, ["WCS", "WCT", "WBP", "WCL"]),
    (.registerImmediate, ["TCS", "TCT", "TBP", "TCL"]),
    (.register, ["PNT", "CCS", "CCT", "CBP", "CCL", "UCS", "UCT", "UBP", "UCL", "DCS", "DCT",
      "DBP", "DCL", "MCS", "MCT", "MBP", "MCL", "RCS", "RCT", "RBP", "RCL"]),
    (.threeRegisters, ["TIM"]),
    (.bare, ["DLY", "ADV"])]
  | .pseudo => [(.long, ["RAW"])]

/-- The operations of the group, in the order of their codes. -/
def operations (g : Group) : List Operation :=
  (g.runs.flatMap fun (shape, names) => names.map (·, shape)).mapIdx fun i (name, shape) =>
    ⟨name, g, g.offset?.map (· + i), shape⟩

end Group

/-! ## Operations -/

namespace Operation

/-- All operations, group by group. -/
def all : List Operation := Group.all.flatMap Group.operations

/-- The place of an operation in its group. -/
def index? (o : Operation) : Option Nat := do
  let code ← o.code?
  let offset ← o.group.offset?
  return code - offset

/-- A name in upper case; only the letters from `a` to `z` have one. -/
def upperCase (name : String) : String := String.ofList (name.toList.map Char.toUpper)

/-- The operation with a name, which may be written in either case. -/
def named? (name : String) : Option Operation := all.find? (·.name = upperCase name)

/-- The operations with a code have all codes from 0 to 95, each once. -/
theorem codes_all : all.filterMap code? = List.range 96 := by decide +kernel

/-- An operation is found by its own name. -/
theorem named?_name : ∀ o ∈ all, named? o.name = some o := by decide +kernel

example : (named? "jIz").map code? = some (some 15) := by decide +kernel
example : named? "ADDX" = none := by decide +kernel

end Operation

end ShiftReduce.Assembly
