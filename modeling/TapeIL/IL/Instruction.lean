import TapeIL.IL.OpCode
import TapeIL.IL.Reference

/-!
Instructions. An operand is attached to an opcode whatever kind the opcode takes, and the readers
look at the operand alone, except for the short forms whose opcode implies the value.
-/

namespace TapeIL

/-- Where a branch leads: a position in the same body, or an instruction that is not part of it. -/
inductive Target where
  | position (index : Nat)
  | outside (op : OpCode)
  /-- No instruction at all. -/
  | unset
deriving DecidableEq, Repr, Inhabited

inductive Operand where
  | none
  | int (value : Int32)
  | slot (index : UInt8)
  | target (place : Target)
  | type (ref : TypeRef)
  | method (ref : MethodRef)
  | words (content : Bytes)
deriving DecidableEq, Repr, Inhabited

namespace Operand

/-- The kind of an operand; free words are of no kind. -/
def kind? : Operand → Option OperandKind
  | .none => some .none
  | .int _ => some .int
  | .slot _ => some .slot
  | .target _ => some .target
  | .type _ => some .type
  | .method _ => some .method
  | .words _ => Option.none

/-- The printed operand, with branch targets shown by `label`. -/
def toText (label : Target → Bytes) : Operand → Bytes
  | .none => []
  | .int value => Bytes.decimalInt value.toInt
  | .slot index => Bytes.decimal index.toNat
  | .target place => label place
  | .type ref => ref.fullName
  | .method ref => ref.signature
  | .words content => content

/-- Whether the operand can be printed with its target shown by the mnemonic found there. -/
def prints : Operand → Bool
  | .target .unset => false
  | _ => true

end Operand

structure Instruction where
  op : OpCode
  operand : Operand := .none
deriving DecidableEq, Repr, Inhabited

/-- An operand of a kind that its opcode does not take. -/
structure OperandMismatch where
  op : OpCode
  kind : OperandKind
deriving DecidableEq, Repr, Inhabited

def OperandMismatch.message (e : OperandMismatch) : Bytes :=
  text "opcode " ++ e.op.name ++ text " does not take operand kind " ++ Bytes.decimal e.kind.number

namespace Instruction

/-- Attaches an operand that must be of the kind the opcode takes. -/
def create (op : OpCode) (kind : OperandKind) (operand : Operand)
    : Except OperandMismatch Instruction :=
  if op.operandKind = kind then .ok ⟨op, operand⟩ else .error ⟨op, kind⟩

/-- The literal of the instruction, or the constant its opcode implies. -/
def int? (i : Instruction) : Option Int32 :=
  match i.op, i.operand with
  | .ldcI4Zero, _ => some 0
  | .ldcI4One, _ => some 1
  | _, .int value => some value
  | _, _ => none

/-- The local slot the instruction touches. -/
def slot? (i : Instruction) : Option UInt8 :=
  match i.op, i.operand with
  | .ldloc0, _ | .stloc0, _ => some 0
  | .ldloc1, _ | .stloc1, _ => some 1
  | .ldloc2, _ | .stloc2, _ => some 2
  | _, .slot index => some index
  | _, _ => none

/-- The branch target; a target that is unset counts as none. -/
def target? (i : Instruction) : Option Target :=
  match i.operand with
  | .target .unset => none
  | .target place => some place
  | _ => none

def type? (i : Instruction) : Option TypeRef :=
  match i.operand with
  | .type ref => some ref
  | _ => none

def method? (i : Instruction) : Option MethodRef :=
  match i.operand with
  | .method ref => some ref
  | _ => none

/-- The type operand; unset where there is none. -/
def typeOperand (i : Instruction) : TypeRef :=
  i.type?.getD .unset

/-- The method operand; one with nothing set where there is none. -/
def methodOperand (i : Instruction) : MethodRef :=
  i.method?.getD {}

/-- The number of bytes the instruction takes. -/
def size (i : Instruction) : Nat :=
  1 + i.op.operandKind.size

/-- How many values the instruction takes from the stack. -/
def pop (i : Instruction) : Nat :=
  i.op.info.pop.getD i.methodOperand.pop

/-- How many values the instruction leaves on the stack. -/
def push (i : Instruction) : Nat :=
  if i.op.info.pop.isNone then i.methodOperand.push else i.op.info.push

/-- Whether the instruction can be printed with its target shown by the mnemonic found there. -/
def prints (i : Instruction) : Bool :=
  i.operand.prints

/-- The mnemonic, followed by the operand if that prints as anything. -/
def toText (label : Target → Bytes) (i : Instruction) : Bytes :=
  let operand := i.operand.toText label
  if operand.isEmpty then i.op.name else i.op.name ++ text " " ++ operand

end Instruction
end TapeIL
