import Std.Data.HashMap
import TapeIL.Module.Basic

/-!
The type and member references of a module, numbered from one in the order of their first use.
Types are told apart by namespace and name, members by their printed signature.
-/

namespace TapeIL

structure References where
  types : Array TypeRef := #[]
  typeRows : Std.HashMap TypeRef Nat := {}
  members : Array MethodRef := #[]
  memberRows : Std.HashMap Bytes Nat := {}

namespace References

def addType (r : References) (t : TypeRef) : References :=
  if r.typeRows.contains t then r
  else
    let row := r.types.size + 1
    { r with types := r.types.push t, typeRows := r.typeRows.insert t row }

/-- Adds a member after the types that it mentions. -/
def addMember (r : References) (m : MethodRef) : References :=
  let key := m.signature
  if r.memberRows.contains key then r
  else
    let r := (m.owner :: m.returned :: m.params).foldl addType r
    let row := r.members.size + 1
    { r with members := r.members.push m, memberRows := r.memberRows.insert key row }

/-- Adds what an instruction refers to, as the kind of its opcode asks for. -/
def addInstruction (r : References) (i : Instruction) : References :=
  match i.op.operandKind with
  | .type => r.addType i.typeOperand
  | .method => r.addMember i.methodOperand
  | _ => r

def addBody (r : References) (b : Body) : References :=
  b.code.foldl addInstruction (b.locals.foldl addType r)

def addTypeDef (r : References) (t : TypeDef) : References :=
  t.methods.foldl (fun r m => r.addBody m.body) (r.addType t.base)

/-- Everything that a module refers to. -/
def ofModule (m : Module) : References :=
  m.types.foldl addTypeDef {}

def typeRow (r : References) (t : TypeRef) : Nat :=
  r.typeRows.getD t 0

def memberRow (r : References) (m : MethodRef) : Nat :=
  r.memberRows.getD m.signature 0

end References

/-- The tables that tokens point into. -/
inductive TokenTable where
  | typeRef
  | methodDef
  | memberRef
deriving DecidableEq, Repr, Inhabited

namespace TokenTable

def number : TokenTable → UInt32
  | .typeRef => 0x01
  | .methodDef => 0x06
  | .memberRef => 0x0A

/-- The token of a row: the table in its high byte, the row in the other three. -/
def token (table : TokenTable) (row : Nat) : UInt32 :=
  (table.number <<< 24) ||| UInt32.ofNat row

/-- The row of a token of this table. -/
def row? (table : TokenTable) (token : UInt32) : Option Nat :=
  if token >>> 24 = table.number then some (token &&& 0x00FFFFFF).toNat else none

/-- What a token of this table points to, rows being counted from one. -/
def find? {α : Type} (table : TokenTable) (rows : Array α) (token : UInt32) : Option α :=
  match table.row? token with
  | some (row + 1) => rows[row]?
  | _ => none

end TokenTable
end TapeIL
