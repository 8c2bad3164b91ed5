import TapeIL.IL.OpCode
import TapeIL.Machine.Console
import TapeIL.Machine.Value

/-!
What can go wrong while a body runs: faults of a single instruction, and failures that stop the
machine.
-/

namespace TapeIL

inductive Fault where
  | underflow
  | kindMismatch (expected actual : Value.Kind)
  | outOfRange (index : Int32) (length : Nat)
  | undeclaredLocal (slot : UInt8)
  | unsupported (op : OpCode)
  | noArgument
  | elementType (type : TypeRef)
  | negativeLength (length : Int32)
  | branchOutside
  | unknownMethod (signature : Bytes)
  | notKeyInfo (actual : Value.Kind)
  | console (cause : ConsoleError)
deriving DecidableEq, Repr, Inhabited

namespace Fault

def invalidProgram (what : Bytes) : Bytes :=
  text "invalid program: " ++ what

def message : Fault → Bytes
  | .underflow => text "evaluation stack underflow"
  | .kindMismatch expected actual =>
      invalidProgram
        (text "expected " ++ expected.name ++ text " on the stack, got " ++ actual.name)
  | .outOfRange index length =>
      text "index was outside the bounds of the array: index " ++ Bytes.decimalInt index.toInt
        ++ text ", length " ++ Bytes.decimal length
  | .undeclaredLocal slot =>
      invalidProgram (text "local " ++ Bytes.decimal slot.toNat ++ text " is not declared")
  | .unsupported op => invalidProgram (text "unsupported opcode " ++ op.name)
  | .noArgument => invalidProgram (text "method has no argument 0")
  | .elementType type =>
      invalidProgram (text "arrays of " ++ type.fullName ++ text " are not supported")
  | .negativeLength length =>
      invalidProgram (text "negative array length " ++ Bytes.decimalInt length.toInt)
  | .branchOutside => invalidProgram (text "branch target outside the method body")
  | .unknownMethod signature => text "unknown method: " ++ signature
  | .notKeyInfo actual => invalidProgram (text "get_KeyChar on " ++ actual.name)
  | .console cause => cause.message

end Fault

/-- Why a machine stopped without returning. -/
inductive Failure where
  | stepLimit (limit : Nat)
  | pastEnd
  | instruction (pc : Nat) (op : OpCode) (fault : Fault)
deriving DecidableEq, Repr, Inhabited

def Failure.message : Failure → Bytes
  | .stepLimit limit => text "step limit exceeded: " ++ Bytes.decimal limit
  | .pastEnd => Fault.invalidProgram (text "execution ran past the end of the method")
  | .instruction pc op fault =>
      text "instruction " ++ Bytes.decimal pc ++ text " (" ++ op.name ++ text "): " ++ fault.message

end TapeIL
