import TapeIL.Proofs.Module.Fields

/-! Reading a module from a buffer by position. The reader keeps its first failure and goes on with
zeros after it, and every access to a buffer, a table or an operand can be one that is not allowed.
-/

namespace TapeIL

/-- Something that a reader must never do. -/
inductive Breach where
  /-- To take bytes that are not all in the buffer. -/
  | slice (first last length : Nat)
  /-- To look up an item that a list does not have. -/
  | index (index length : Nat)
  /-- To attach an operand that the opcode does not take. -/
  | operand (cause : OperandMismatch)
deriving DecidableEq, Repr

namespace Buffer

variable {α : Type}

------------------------------------------------------------------------------------------
-- accesses
------------------------------------------------------------------------------------------

/-- The bytes from one position up to another. -/
def slice (bytes : Bytes) (first last : Nat) : Except Breach Bytes :=
  if first ≤ last ∧ last ≤ bytes.length then .ok ((bytes.drop first).take (last - first))
  else .error (.slice first last bytes.length)

def index (xs : List α) (i : Nat) : Except Breach α :=
  match xs[i]? with
  | some x => .ok x
  | none => .error (.index i xs.length)

/-- The number in the first `count` bytes. -/
def word (count : Nat) (bytes : Bytes) : Except Breach Nat := do
  return Bytes.ofLittleEndian (← slice bytes 0 count)

/-- What a token points to, if its row is one of the table. -/
def find (table : TokenTable) (rows : List α) (token : UInt32) : Except Breach (Option α) :=
  match table.row? token with
  | none => .ok none
  | some row =>
      if row < 1 ∨ rows.length < row then .ok none
      else some <$> index rows (row - 1)

/-- A computation that can fail, and that can also go wrong. -/
abbrev Guarded (ε : Type) := ExceptT ε (Except Breach)

------------------------------------------------------------------------------------------
-- byte code
------------------------------------------------------------------------------------------

/-- Attaches an operand. -/
def attach (op : OpCode) (kind : OperandKind) (operand : Operand) : Except Breach Operand :=
  match Instruction.create op kind operand with
  | .ok i => .ok i.operand
  | .error cause => .error (.operand cause)

/-- The operand of an instruction at `offset`, given its bytes. A branch is left as an offset. -/
def operand (t : Decode.Tables) (offset : Nat) (op : OpCode) (bytes : Bytes)
    : Guarded CodeError (Operand ⊕ Int) :=
  match op.operandKind with
  | .none => do
      return .inl (← attach op .none .none)
  | .int => do
      let value ← word 4 bytes
      return .inl (← attach op .int (.int value.toUInt32.toInt32))
  | .slot => do
      let slot ← (index bytes 0 : Except Breach UInt8)
      return .inl (← attach op .slot (.slot slot))
  | .target => do
      let distance ← word 4 bytes
      return .inr ((offset : Int) + 1 + bytes.length + distance.toUInt32.toInt32.toInt)
  | .type => do
      let token ← word 4 bytes
      match ← find .typeRef t.types.toList token.toUInt32 with
      | some ref => return .inl (← attach op .type (.type ref))
      | none => throw (.typeToken token.toUInt32 offset)
  | .method => do
      let token ← word 4 bytes
      match ← find .memberRef t.members.toList token.toUInt32 with
      | some ref => return .inl (← attach op .method (.method ref))
      | none => throw (.memberToken token.toUInt32 offset)

/-- The instructions of byte code from `offset` on. -/
def items (t : Decode.Tables) (code : Bytes) (offset : Nat)
    : Guarded CodeError (List Decode.Item) := do
  if offset < code.length then
    let byte ← (index code offset : Except Breach UInt8)
    match OpCode.ofByte? byte with
    | none => throw (.unknownOpcode byte offset)
    | some op =>
        let next := offset + 1 + op.operandKind.size
        if code.length < next then throw (.shortOperand op offset)
        else
          let bytes ← slice code (offset + 1) next
          let operand ← operand t offset op bytes
          let more ← items t code next
          return { offset, op, operand } :: more
  else return []
termination_by code.length - offset
decreasing_by omega

/-- The instructions of byte code, with branches by position. -/
def code (t : Decode.Tables) (bytes : Bytes) : Guarded CodeError (List Instruction) := do
  let items ← items t bytes 0
  let positions := Std.HashMap.ofList ((items.map Decode.Item.offset).zipIdx)
  ExceptT.mk (.ok (items.mapM (Decode.resolve positions)))

------------------------------------------------------------------------------------------
-- fields
------------------------------------------------------------------------------------------

/-- A buffer, the position reading has come to, and the first failure, if there was any. -/
structure Reader where
  data : Bytes
  position : Nat
  error? : Option DecodeError := none

abbrev Buffered := StateT Reader (Except Breach)

/-- Takes bytes; after a failure there are none. -/
def take (n : Nat) : Buffered (Option Bytes) := do
  let r ← get
  if r.error?.isSome then return none
  else if r.data.length < r.position + n then
    set { r with error? := some (.truncated r.position) }
    return none
  else
    let bytes ← slice r.data r.position (r.position + n)
    set { r with position := r.position + n }
    return some bytes

/-- Keeps a failure, unless there was one before it. -/
def fail (e : DecodeError) : Buffered Unit :=
  modify fun r => { r with error? := r.error?.or (some e) }

/-- A number of `count` bytes; after a failure it is zero. -/
def number (count : Nat) : Buffered Nat := do
  match ← take count with
  | some bytes => word count bytes
  | none => return 0

def u8 : Buffered UInt8 := do
  return (← number 1).toUInt8

def u16 : Buffered UInt16 := do
  return (← number 2).toUInt16

def u32 : Buffered UInt32 := do
  return (← number 4).toUInt32

/-- A number of bytes; after a failure they are empty. -/
def bytes (n : Nat) : Buffered Bytes := do
  return (← take n).getD []

def string : Buffered Bytes := do
  let length ← u16
  bytes length.toNat

/-- Reads the same thing a number of times, or until there is a failure. -/
def times (n : Nat) (item : Buffered α) : Buffered (List α) :=
  match n with
  | 0 => return []
  | n + 1 => do
      if (← get).error?.isSome then return []
      else
        let a ← item
        let rest ← times n item
        return a :: rest

def typeRef : Buffered TypeRef := do
  let ns ← string
  let name ← string
  return { ns, name }

/-- Reads a token that has to point to a type; the type is unset if it does not. -/
def typeToken (t : Decode.Tables) : Buffered TypeRef := do
  let token ← u32
  match ← find .typeRef t.types.toList token with
  | some ref => return ref
  | none =>
      fail (.typeToken token)
      return .unset

def member (t : Decode.Tables) : Buffered MethodRef := do
  let owner ← typeToken t
  let name ← string
  let hasThis ← u8
  let ret ← typeToken t
  let count ← u8
  let params ← times count.toNat (typeToken t)
  return { hasThis := hasThis != 0, ret, owner, name, params }

------------------------------------------------------------------------------------------
-- drafts
------------------------------------------------------------------------------------------

/-- A method that may have no body. -/
structure MethodDraft where
  name : Bytes
  isStatic : Bool
  body? : Option Body
deriving DecidableEq, Repr

structure TypeDraft where
  ns : Bytes
  name : Bytes
  base : TypeRef
  methods : List MethodDraft
deriving DecidableEq, Repr

/-- A module with methods that may have no bodies. -/
structure Draft where
  name : Bytes
  version : Version
  id : ModuleId
  types : List TypeDraft
  entry : Module.Entry := .none
deriving DecidableEq, Repr

/-- Reads a method, which has no body if there is a failure on the way. -/
def method (t : Decode.Tables) : Buffered MethodDraft := do
  let name ← string
  let flags ← u16
  let count ← u8
  let locals ← times count.toNat (typeToken t)
  let size ← u32
  let bytes ← bytes size.toNat
  let draft : MethodDraft := { name, isStatic := flags &&& 0x0010 != 0, body? := none }
  if (← get).error?.isSome then return draft
  else
    match ← (code t bytes).run with
    | .ok instructions =>
        return { draft with body? := some { locals, code := instructions.toArray } }
    | .error cause =>
        fail (.method name cause)
        return draft

def typeDef (t : Decode.Tables) : Buffered TypeDraft := do
  let ns ← string
  let name ← string
  let base ← typeToken t
  let count ← u16
  let methods ← times count.toNat (method t)
  return { ns, name, base, methods }

def version : Buffered Version := do
  let major ← u16
  let minor ← u16
  let build ← u16
  let revision ← u16
  return { major, minor, build, revision }

/-- The places of all methods in order, the first type being at `type`. -/
def places (type : Nat) : List TypeDraft → List (Nat × Nat)
  | [] => []
  | t :: rest =>
      (List.range t.methods.length).map (fun index => (type, index)) ++ places (type + 1) rest

/-- The entry method that a token points to; zero points to none. -/
def entry (types : List TypeDraft) (token : UInt32) : Guarded DecodeError Module.Entry :=
  if token = 0 then return .none
  else do
    match ← find .methodDef (places 0 types) token with
    | some (type, index) => return .method type index
    | none => throw (.entryToken token)

/-- All fields behind the format version, and the token of the entry method. -/
def fields : Buffered (Draft × UInt32) := do
  let name ← string
  let version ← version
  let id ← bytes 16
  let typeCount ← u16
  let typeRefs ← times typeCount.toNat typeRef
  let tables : Decode.Tables := { types := typeRefs.toArray }
  let memberCount ← u16
  let members ← times memberCount.toNat (member tables)
  let tables := { tables with members := members.toArray }
  let count ← u16
  let types ← times count.toNat (typeDef tables)
  let token ← u32
  return ({ name, version, id := .ofBytes id, types }, token)

/-- All fields, and then the entry method. A failure is looked for between the two. -/
def located : Buffered (Except DecodeError Draft) := do
  let (draft, token) ← fields
  let r ← get
  match r.error? with
  | some e => return .error e
  | none =>
      let entry ← (entry draft.types token).run
      return entry.map fun entry => { draft with entry }

/-- Everything behind the magic bytes. -/
def contents : Buffered (Except DecodeError Draft) := do
  let format ← u16
  let r ← get
  if r.error?.isNone ∧ format ≠ Encode.formatVersion then return .error (.unsupported format)
  else located

def decode (bytes : Bytes) : Guarded DecodeError Draft := do
  if bytes.length < Encode.magic.length then throw .badMagic
  else
    let magic ← slice bytes 0 Encode.magic.length
    if magic ≠ Encode.magic then throw .badMagic
    else
      ExceptT.mk ((contents.run { data := bytes, position := Encode.magic.length }).map Prod.fst)

end Buffer
end TapeIL
