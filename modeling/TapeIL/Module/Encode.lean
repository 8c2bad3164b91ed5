import TapeIL.Module.References

/-!
The binary form of modules: names, reference tables, types with their methods as byte code, and
the token of the entry method. All numbers are little endian.
-/

namespace TapeIL

inductive EncodeError where
  | branch (method : Bytes) (cause : TargetError)
  | longText (length : Nat)
  | tooMany (what : Bytes) (count : Nat)
deriving DecidableEq, Repr, Inhabited

def malformed (what : Bytes) : Bytes :=
  text "malformed module: " ++ what

def EncodeError.message : EncodeError → Bytes
  | .branch method cause => text "method " ++ method ++ text ": " ++ malformed cause.message
  | .longText length =>
      malformed (text "string of " ++ Bytes.decimal length ++ text " bytes is too long")
  | .tooMany what count =>
      malformed (text "too many " ++ what ++ text " (" ++ Bytes.decimal count ++ text ")")

namespace Encode

def u8 (n : Nat) : Bytes := Bytes.littleEndian 1 n
def u16 (n : UInt16) : Bytes := Bytes.littleEndian 2 n.toNat
def u32 (n : UInt32) : Bytes := Bytes.littleEndian 4 n.toNat

def magic : Bytes :=
  text "BFIL"

def formatVersion : UInt16 := 1

/-- The largest length of a text and of a list. -/
def maxCount : Nat := 65535

def string (s : Bytes) : Except EncodeError Bytes :=
  if s.length ≤ maxCount then .ok (u16 s.length.toUInt16 ++ s) else .error (.longText s.length)

def count (what : Bytes) (n : Nat) : Except EncodeError Bytes :=
  if n ≤ maxCount then .ok (u16 n.toUInt16) else .error (.tooMany what n)

/-- The parts one after another, if all of them can be written. -/
def sequence {α : Type} (write : α → Except EncodeError Bytes) (xs : List α)
    : Except EncodeError Bytes := do
  let parts ← xs.mapM write
  return parts.flatten

def typeToken (r : References) (t : TypeRef) : Bytes :=
  u32 (TokenTable.typeRef.token (r.typeRow t))

def memberToken (r : References) (m : MethodRef) : Bytes :=
  u32 (TokenTable.memberRef.token (r.memberRow m))

/-- A branch displacement, counted from the instruction behind the branch. -/
def displacement (target next : Nat) : Bytes :=
  u32 (Int32.ofInt ((target : Int) - next)).toUInt32

/-- The operand of an instruction, as the kind of its opcode asks for. -/
def operand (r : References) (b : Body) (offsets : Array Nat) (index : Nat) (i : Instruction)
    : Bytes :=
  match i.op.operandKind with
  | .none => []
  | .int => u32 (i.int?.getD 0).toUInt32
  | .slot => u8 (i.slot?.getD 0).toNat
  | .target =>
      displacement (offsets[(b.branch? i).getD 0]?.getD 0) (offsets[index + 1]?.getD 0)
  | .type => typeToken r i.typeOperand
  | .method => memberToken r i.methodOperand

/-- The byte code of a body whose branches all lead to instructions of it. -/
def code (r : References) (b : Body) : Bytes :=
  let offsets := b.offsets.toArray
  b.code.toList.zipIdx.flatMap fun (i, index) => i.op.info.code :: operand r b offsets index i

def member (r : References) (m : MethodRef) : Except EncodeError Bytes := do
  let name ← string m.name
  return typeToken r m.owner ++ name ++ u8 m.hasThis.toNat ++ typeToken r m.returned
    ++ u8 m.params.length ++ m.params.flatMap (typeToken r)

def typeRef (t : TypeRef) : Except EncodeError Bytes := do
  let ns ← string t.ns
  let name ← string t.name
  return ns ++ name

/-- The attributes of a method: whether it is static, and whether it is a constructor. -/
def flags (m : MethodDef) : UInt16 :=
  (if m.isStatic then 0x0010 else 0) ||| (if m.name = MethodDef.ctorName then 0x1800 else 0)

def method (r : References) (m : MethodDef) : Except EncodeError Bytes := do
  let name ← string m.name
  let code := code r m.body
  return name ++ u16 (flags m) ++ u8 m.body.locals.length ++ m.body.locals.flatMap (typeToken r)
    ++ u32 (UInt32.ofNat code.length) ++ code

def typeDef (r : References) (t : TypeDef) : Except EncodeError Bytes := do
  let ns ← string t.ns
  let name ← string t.name
  let methodCount ← count (text "methods") t.methods.length
  let methods ← sequence (method r) t.methods
  return ns ++ name ++ typeToken r t.base ++ methodCount ++ methods

def version (v : Version) : Bytes :=
  u16 v.major ++ u16 v.minor ++ u16 v.build ++ u16 v.revision

/-- The token of the entry method, or zero. -/
def entryToken (m : Module) : UInt32 :=
  match m.entryRow with
  | 0 => 0
  | row => TokenTable.methodDef.token row

end Encode

namespace Module

open Encode

/-- The first bad branch of a method, in the order of the methods. -/
def badBranch? (m : Module) : Option EncodeError :=
  m.methods.findSome? fun (name, method) => method.body.badTarget?.map (.branch name)

def encode (m : Module) : Except EncodeError Bytes := do
  if let some e := m.badBranch? then throw e
  let r := References.ofModule m
  let name ← string m.name
  let typeRefCount ← count (text "type references") r.types.size
  let typeRefs ← sequence typeRef r.types.toList
  let memberCount ← count (text "member references") r.members.size
  let members ← sequence (member r) r.members.toList
  let typeCount ← count (text "types") m.types.length
  let types ← sequence (typeDef r) m.types
  return magic ++ u16 formatVersion ++ name ++ Encode.version m.version ++ m.id.toList
    ++ typeRefCount ++ typeRefs ++ memberCount ++ members ++ typeCount ++ types
    ++ u32 (entryToken m)

end Module
end TapeIL
