import ShiftReduce.Assembly.LineGrammar
import ShiftReduce.Text.Decimal

/-!
# Instructions

An operation with its operands. It is read off the parse tree of a line, where the rule of the
instruction tells the shape. The operands are read from left to right, and the name of the
operation is looked up last. The operands that are written need not be those that the operation
takes; `Instruction.fits` tells.
-/

namespace ShiftReduce.Assembly

/-- How many bits an immediate operand has. -/
def immediateBits : Nat := 20

inductive Operand where
  | register (index : Fin registerCount)
  | immediate (value : Fin (Nat.pow 2 immediateBits))
deriving DecidableEq, Repr

def Operand.render : Operand → String
  | .register index => "r" ++ toString index.val
  | .immediate value => toString value.val

structure Instruction where
  operation : Operation
  /-- The shape that is written. -/
  shape : Shape
  operands : List Operand
deriving DecidableEq, Repr

/-- Why a tree is no instruction. -/
inductive InstructionError where
  | unknownOperation (text : String)
  | immediateOutOfRange (text : String)
  | invalidRegister (text : String)
  /-- The root has not one child. -/
  | notSingle
  /-- The child is not a tree of a rule for instructions. -/
  | notInstruction
  /-- The leaves of the child are not those of its rule. -/
  | unexpectedOperands
deriving DecidableEq, Repr

def InstructionError.message : InstructionError → String
  | .unknownOperation text => "unknown operation " ++ quoteName text
  | .immediateOutOfRange text =>
    "immediate value " ++ quoteName text ++ " does not fit in " ++ toString immediateBits ++ " bits"
  | .invalidRegister text => "invalid register " ++ quoteName text
  | .notSingle => "malformed instruction tree: expected a single instruction"
  | .notInstruction => "malformed instruction tree: not an instruction rule"
  | .unexpectedOperands => "malformed instruction tree: unexpected operands"

/-! ## Operands -/

namespace Operand

/-- The operand that is one of the registers. -/
def ofRegister (text : String) : Except InstructionError Operand :=
  match text.toList with
  | 'r' :: digits =>
    match Text.plusDecimal? digits with
    | some n => if h : n < registerCount then .ok (.register ⟨n, h⟩) else .error (.invalidRegister text)
    | none => .error (.invalidRegister text)
  | _ => .error (.invalidRegister text)

/-- The operand that is a number. -/
def ofImmediate (text : String) : Except InstructionError Operand :=
  match Text.plusDecimal? text.toList with
  | some n =>
    if h : n < Nat.pow 2 immediateBits then .ok (.immediate ⟨n, h⟩)
    else .error (.immediateOutOfRange text)
  | none => .error (.immediateOutOfRange text)

end Operand

/-! ## Trees -/

/-- The name of the operation and the operands, given the texts of the leaves. -/
def readOperands (shape : Shape) (texts : List String) :
    Except InstructionError (String × List Operand) :=
  match shape, texts with
  | .bare, [name] => .ok (name, [])
  | .register, [name, a] => do
    let a ← Operand.ofRegister a
    return (name, [a])
  | .registerImmediate, [name, a, _, n] => do
    let a ← Operand.ofRegister a
    let n ← Operand.ofImmediate n
    return (name, [a, n])
  | .threeRegisters, [name, a, _, b, _, c] => do
    let a ← Operand.ofRegister a
    let b ← Operand.ofRegister b
    let c ← Operand.ofRegister c
    return (name, [a, b, c])
  | _, _ => .error .unexpectedOperands

namespace Instruction

/-- The instruction of a tree whose rule has a shape. -/
def ofShape (shape : Shape) (texts : List String) : Except InstructionError Instruction := do
  let (name, operands) ← readOperands shape texts
  match Operation.named? name with
  | some operation => return ⟨operation, shape, operands⟩
  | none => throw (.unknownOperation name)

/-- The instruction of the parse tree of a line. -/
def ofTree (t : Tree SymbolId RuleId) : Except InstructionError Instruction :=
  match t.children with
  | [child] =>
    match child.rule?.bind shapeOf? with
    | some shape => ofShape shape (child.children.filterMap Tree.leafText?)
    | none => .error .notInstruction
  | _ => .error .notSingle

/-- Whether the operands are those that the operation takes. -/
def fits (i : Instruction) : Bool := i.shape = i.operation.shape

/-- The instruction as a line of code, with the code of its operation in a comment. -/
def render (i : Instruction) : String :=
  i.operation.name ++
    (if i.operands.isEmpty then "" else " " ++ ", ".intercalate (i.operands.map Operand.render)) ++
    (i.operation.code?.elim "" fun code => "  ; op=" ++ toString code)

end Instruction

example : (Instruction.ofShape .registerImmediate ["jiz", "r3", ",", "0128"]).toOption.map
    Instruction.render = some "JIZ r3, 128  ; op=15" := by
  decide +kernel

end ShiftReduce.Assembly
