import TapeIL.Module.Encode

/-!
Reading modules. Bytes are taken one field after another; the first field that is wrong, or that
the input is too short for, decides the error. Bytes behind the last field are not looked at.
-/

namespace TapeIL

/-- What is wrong with the byte code of a method. -/
inductive CodeError where
  | unknownOpcode (byte : UInt8) (offset : Nat)
  | shortOperand (op : OpCode) (offset : Nat)
  | typeToken (token : UInt32) (offset : Nat)
  | memberToken (token : UInt32) (offset : Nat)
  | branch (offset : Nat) (target : Int)
deriving DecidableEq, Repr, Inhabited

inductive DecodeError where
  | badMagic
  | unsupported (version : UInt16)
  | truncated (position : Nat)
  | typeToken (token : UInt32)
  | entryToken (token : UInt32)
  | method (name : Bytes) (cause : CodeError)
deriving DecidableEq, Repr, Inhabited

namespace CodeError

def tokenText (token : UInt32) : Bytes :=
  text "0x" ++ Bytes.hex 8 token.toNat

/-- A label for an offset that may be negative. -/
def targetLabel (target : Int) : Bytes :=
  match target with
  | .ofNat n => Body.offsetLabel n
  | .negSucc n => text "IL_-" ++ Bytes.hex 3 (n + 1)

def message : CodeError → Bytes
  | .unknownOpcode byte offset =>
      text "unknown opcode 0x" ++ Bytes.hex 2 byte.toNat ++ text " at " ++ Body.offsetLabel offset
  | .shortOperand op offset =>
      text "truncated operand of " ++ op.name ++ text " at " ++ Body.offsetLabel offset
  | .typeToken token offset =>
      text "invalid type token " ++ tokenText token ++ text " at " ++ Body.offsetLabel offset
  | .memberToken token offset =>
      text "invalid member token " ++ tokenText token ++ text " at " ++ Body.offsetLabel offset
  | .branch offset target =>
      text "branch at " ++ Body.offsetLabel offset ++ text " to " ++ targetLabel target
        ++ text " is not an instruction boundary"

end CodeError

def DecodeError.message : DecodeError → Bytes
  | .badMagic => text "bad module magic"
  | .unsupported version =>
      text "unsupported module format: version " ++ Bytes.decimal version.toNat
  | .truncated position => malformed (text "unexpected EOF at byte " ++ Bytes.decimal position)
  | .typeToken token => malformed (text "invalid type token " ++ CodeError.tokenText token)
  | .entryToken token => malformed (text "invalid entry point token " ++ CodeError.tokenText token)
  | .method name cause => malformed (text "method " ++ name ++ text ": " ++ cause.message)

/-- The bytes still to be read, and how many were read before them. -/
structure Cursor where
  rest : Bytes
  position : Nat
deriving DecidableEq, Repr, Inhabited

abbrev Decoder := StateT Cursor (Except DecodeError)

namespace Decode

/-- The reference tables read so far. -/
structure Tables where
  types : Array TypeRef := #[]
  members : Array MethodRef := #[]
deriving DecidableEq, Repr, Inhabited

def take (n : Nat) : Decoder Bytes := do
  let c ← get
  match Bytes.take? n c.rest with
  | some taken =>
      set (Cursor.mk (c.rest.drop n) (c.position + n))
      return taken
  | none => throw (.truncated c.position)

def u8 : Decoder UInt8 := do
  return (Bytes.ofLittleEndian (← take 1)).toUInt8

def u16 : Decoder UInt16 := do
  return (Bytes.ofLittleEndian (← take 2)).toUInt16

def u32 : Decoder UInt32 := do
  return (Bytes.ofLittleEndian (← take 4)).toUInt32

def string : Decoder Bytes := do
  take (← u16).toNat

/-- Reads the same thing a number of times. -/
def times {α : Type} (n : Nat) (item : Decoder α) : Decoder (List α) :=
  (List.replicate n ()).mapM fun _ => item

def typeRef : Decoder TypeRef := do
  let ns ← string
  let name ← string
  return { ns, name }

/-- Reads a token that has to point to a type. -/
def typeToken (t : Tables) : Decoder TypeRef := do
  let token ← u32
  match TokenTable.typeRef.find? t.types token with
  | some ref => return ref
  | none => throw (.typeToken token)

def member (t : Tables) : Decoder MethodRef := do
  let owner ← typeToken t
  let name ← string
  let hasThis ← u8
  let ret ← typeToken t
  let params ← times (← u8).toNat (typeToken t)
  return { hasThis := hasThis != 0, ret, owner, name, params }

/-- An instruction at its offset, whose branch still leads to an offset. -/
structure Item where
  offset : Nat
  op : OpCode
  operand : Operand ⊕ Int
deriving DecidableEq, Repr

/-- The operand of an instruction at `offset`, given its bytes. A branch is left as an offset. -/
def operand (t : Tables) (offset : Nat) (op : OpCode) (bytes : Bytes)
    : Except CodeError (Operand ⊕ Int) :=
  let word := (Bytes.ofLittleEndian bytes).toUInt32
  match op.operandKind with
  | .none => .ok (.inl .none)
  | .int => .ok (.inl (.int word.toInt32))
  | .slot => .ok (.inl (.slot (Bytes.ofLittleEndian bytes).toUInt8))
  | .target => .ok (.inr ((offset : Int) + 1 + bytes.length + word.toInt32.toInt))
  | .type =>
      match TokenTable.typeRef.find? t.types word with
      | some ref => .ok (.inl (.type ref))
      | none => .error (.typeToken word offset)
  | .method =>
      match TokenTable.memberRef.find? t.members word with
      | some ref => .ok (.inl (.method ref))
      | none => .error (.memberToken word offset)

/-- The instructions of byte code that starts at `offset`. -/
def items (t : Tables) (offset : Nat) : Bytes → Except CodeError (List Item)
  | [] => .ok []
  | b :: rest =>
      match OpCode.ofByte? b with
      | none => .error (.unknownOpcode b offset)
      | some op =>
          match Bytes.take? op.operandKind.size rest with
          | none => .error (.shortOperand op offset)
          | some bytes => do
              let operand ← operand t offset op bytes
              let more ← items t (offset + 1 + op.operandKind.size)
                (rest.drop op.operandKind.size)
              return { offset, op, operand } :: more
termination_by code => code.length
decreasing_by
  simp only [List.length_drop, List.length_cons]
  omega

/-- The instruction of an item, given the positions of all offsets. -/
def resolve (positions : Std.HashMap Nat Nat) (i : Item) : Except CodeError Instruction :=
  match i.operand with
  | .inl operand => .ok ⟨i.op, operand⟩
  | .inr target =>
      match target with
      | .ofNat n =>
          match positions[n]? with
          | some index => .ok ⟨i.op, .target (.position index)⟩
          | none => .error (.branch i.offset target)
      | .negSucc _ => .error (.branch i.offset target)

/-- The instructions of byte code, with branches by position. -/
def code (t : Tables) (bytes : Bytes) : Except CodeError (List Instruction) := do
  let items ← items t 0 bytes
  let positions := Std.HashMap.ofList ((items.map Item.offset).zipIdx)
  items.mapM (resolve positions)

def method (t : Tables) : Decoder MethodDef := do
  let name ← string
  let flags ← u16
  let locals ← times (← u8).toNat (typeToken t)
  let bytes ← take (← u32).toNat
  match code t bytes with
  | .ok instructions =>
      return {
        name
        isStatic := flags &&& 0x0010 != 0
        body := { locals, code := instructions.toArray } }
  | .error cause => throw (.method name cause)

def typeDef (t : Tables) : Decoder TypeDef := do
  let ns ← string
  let name ← string
  let base ← typeToken t
  let methods ← times (← u16).toNat (method t)
  return { ns, name, base, methods }

def version : Decoder Version := do
  let major ← u16
  let minor ← u16
  let build ← u16
  let revision ← u16
  return { major, minor, build, revision }

/-- The entry method that a token points to; zero points to none. -/
def entry (types : List TypeDef) (token : UInt32) : Except DecodeError Module.Entry :=
  if token = 0 then .ok .none
  else
    match TokenTable.methodDef.row? token with
    | some (row + 1) =>
        match Module.locate? types row with
        | some (type, index) => .ok (.method type index)
        | none => .error (.entryToken token)
    | _ => .error (.entryToken token)

/-- All fields behind the format version, and the token of the entry method. -/
def fields : Decoder (Module × UInt32) := do
  let name ← string
  let version ← version
  let id ← take 16
  let typeRefs ← times (← u16).toNat typeRef
  let tables : Tables := { types := typeRefs.toArray }
  let members ← times (← u16).toNat (member tables)
  let tables := { tables with members := members.toArray }
  let types ← times (← u16).toNat (typeDef tables)
  let token ← u32
  return ({ name, version, id := .ofBytes id, types, entry := .none }, token)

/-- Everything behind the format version. -/
def located : Decoder Module := do
  let (m, token) ← fields
  let entry ← entry m.types token
  return { m with entry }

/-- Everything behind the magic bytes. -/
def contents : Decoder Module := do
  let format ← u16
  if format ≠ Encode.formatVersion then throw (.unsupported format)
  located

end Decode

namespace Module

/-- Reads a module and tells what is left behind it. -/
def decodeRest (bytes : Bytes) : Except DecodeError (Module × Cursor) :=
  match Bytes.after? Encode.magic bytes with
  | some rest => Decode.contents.run { rest, position := Encode.magic.length }
  | none => .error .badMagic

def decode (bytes : Bytes) : Except DecodeError Module :=
  (decodeRest bytes).map Prod.fst

end Module
end TapeIL
