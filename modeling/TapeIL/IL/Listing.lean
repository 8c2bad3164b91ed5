import Std.Data.HashMap
import TapeIL.IL.Body
import TapeIL.Yaml.Reading

/-!
Listings: method bodies as texts, with labels for the targets of branches.
-/

namespace TapeIL

/-- One instruction of a listing. -/
structure Listing.Entry where
  offset : Bytes := []
  op : Bytes := []
  operand : Bytes := []
deriving DecidableEq, Repr, Inhabited

structure Listing where
  method : Bytes := []
  locals : List Bytes := []
  entries : List Listing.Entry := []
deriving DecidableEq, Repr, Inhabited

/-- What is wrong with one entry. -/
inductive Listing.EntryError where
  | unknownOpcode (name : Bytes)
  | noOperand (op : OpCode)
  | literal (operand : Bytes)
  | slot (operand : Bytes)
  | reference (cause : RefError)
deriving DecidableEq, Repr, Inhabited

inductive ListingError where
  | unreadable (cause : Yaml.ReadError)
  | localType (name : Bytes) (cause : RefError)
  | entry (index : Nat) (cause : Listing.EntryError)
  | undefinedTarget (label : Bytes)
deriving DecidableEq, Repr, Inhabited

namespace Listing

/-- The message for a mnemonic that no opcode has. -/
def unknownOpcode (name : Bytes) : Bytes :=
  text "unknown opcode " ++ name.quoted

def EntryError.message : EntryError → Bytes
  | .unknownOpcode name => Listing.unknownOpcode name
  | .noOperand op => op.name ++ text " takes no operand"
  | .literal operand => text "invalid literal " ++ operand.quoted
  | .slot operand => text "invalid local slot " ++ operand.quoted
  | .reference cause => cause.message

end Listing

def ListingError.message : ListingError → Bytes
  | .unreadable cause => text "failed to parse listing: " ++ cause.message
  | .localType name cause => text "local " ++ name.quoted ++ text ": " ++ cause.message
  | .entry index cause => text "entry " ++ Bytes.decimal index ++ text ": " ++ cause.message
  | .undefinedTarget label => text "undefined branch target " ++ label.quoted

namespace Listing

def ofBody (method : Bytes) (b : Body) : Listing :=
  let label := b.label
  { method
    locals := b.locals.map TypeRef.fullName
    entries := (b.code.toList.zip b.offsets).map fun (i, offset) =>
      { offset := Body.offsetLabel offset, op := i.op.name, operand := i.operand.toText label } }

/-- An instruction whose branch may still lead to a label. -/
inductive Draft where
  | done (i : Instruction)
  | branch (op : OpCode) (label : Bytes)
deriving DecidableEq, Repr

/-- A number that fits in 32 bits. -/
def int32? (operand : Bytes) : Option Int32 :=
  match Bytes.int? operand with
  | some n => if -0x80000000 ≤ n ∧ n < 0x80000000 then some (Int32.ofInt n) else none
  | none => none

/-- A number that fits in a byte. -/
def slot? (operand : Bytes) : Option UInt8 :=
  match Bytes.nat? operand with
  | some n => if n < 256 then some n.toUInt8 else none
  | none => none

/-- Reads an operand as the kind of its opcode asks for. -/
def draft (op : OpCode) (operand : Bytes) : Except EntryError Draft :=
  match op.operandKind with
  | .none => if operand.isEmpty then .ok (.done ⟨op, .none⟩) else .error (.noOperand op)
  | .int =>
      match int32? operand with
      | some n => .ok (.done ⟨op, .int n⟩)
      | none => .error (.literal operand)
  | .slot =>
      match slot? operand with
      | some n => .ok (.done ⟨op, .slot n⟩)
      | none => .error (.slot operand)
  | .target => .ok (.branch op operand)
  | .type =>
      match TypeRef.parse operand with
      | .ok ref => .ok (.done ⟨op, .type ref⟩)
      | .error e => .error (.reference e)
  | .method =>
      match MethodRef.parse operand with
      | .ok ref => .ok (.done ⟨op, .method ref⟩)
      | .error e => .error (.reference e)

def draftEntry (e : Entry) : Except EntryError Draft :=
  match OpCode.ofMnemonic? e.op with
  | some op => draft op e.operand
  | none => .error (.unknownOpcode e.op)

/-- The positions of labels. Of several entries with one label the last has it. -/
def labels (entries : List Entry) : Std.HashMap Bytes Nat :=
  Std.HashMap.ofList ((entries.zipIdx.filter fun (e, _) => !e.offset.isEmpty).map
    fun (e, index) => (e.offset, index))

def resolve (labels : Std.HashMap Bytes Nat) : Draft → Except ListingError Instruction
  | .done i => .ok i
  | .branch op label =>
      match labels[label]? with
      | some index => .ok ⟨op, .target (.position index)⟩
      | none => .error (.undefinedTarget label)

/-- The body that a listing describes. -/
def body (l : Listing) : Except ListingError Body := do
  let locals ← l.locals.mapM fun name => (TypeRef.parse name).mapError (.localType name)
  let drafts ← l.entries.zipIdx.mapM fun (e, index) => (draftEntry e).mapError (.entry index)
  let labels := labels l.entries
  let code ← drafts.mapM (resolve labels)
  return { locals, code := code.toArray }

/-- Reads one instruction. Names of other fields are passed over. -/
def Entry.reader : Yaml.Node → Yaml.Reading (Option Entry) :=
  Yaml.Reading.record (text "il.ListingEntry") false
    (fun name =>
      if name = text "offset" then some fun e node => do
        return { e with offset := (← Yaml.Reading.string node).getD e.offset }
      else if name = text "op" then some fun e node => do
        return { e with op := (← Yaml.Reading.string node).getD e.op }
      else if name = text "operand" then some fun e node => do
        return { e with operand := (← Yaml.Reading.string node).getD e.operand }
      else none)
    {}

/-- Reads a listing. Names of other fields are passed over. -/
def reader : Yaml.Node → Yaml.Reading (Option Listing) :=
  Yaml.Reading.record (text "il.Listing") false
    (fun name =>
      if name = text "method" then some fun l node => do
        return { l with method := (← Yaml.Reading.string node).getD l.method }
      else if name = text "locals" then some fun l node => do
        return { l with
          locals := ← Yaml.Reading.sequence (text "[]string") Yaml.Reading.string node }
      else if name = text "instructions" then some fun l node => do
        return { l with
          entries := ← Yaml.Reading.sequence (text "[]il.ListingEntry") Entry.reader node }
      else none)
    {}

/-- The method name and the body of the listing that a document is read as. -/
def loadWith (read : Bytes → Except Yaml.ReadError Listing) (source : Bytes)
    : Except ListingError (Bytes × Body) :=
  match read source with
  | .ok l => l.body.map fun b => (l.method, b)
  | .error e => .error (.unreadable e)

/-- The method name and the body in a YAML document. -/
def load (source : Bytes) : Except ListingError (Bytes × Body) :=
  loadWith (Yaml.read reader {}) source

/-- An entry as a mapping; an empty operand is left out. -/
def Entry.toYaml (e : Entry) : Bytes :=
  Yaml.stringField 8 (text "offset") e.offset
    ++ text "      " ++ Yaml.stringField 8 (text "op") e.op
    ++ if e.operand.isEmpty then []
      else text "      " ++ Yaml.stringField 8 (text "operand") e.operand

/-- A listing as a YAML document. -/
def toYaml (l : Listing) : Bytes :=
  Yaml.stringField 4 (text "method") l.method
    ++ Yaml.sequenceField (text "locals")
      (l.locals.map fun name => Yaml.endLine (Yaml.writeString 6 name))
    ++ Yaml.sequenceField (text "instructions") (l.entries.map Entry.toYaml)

end Listing
end TapeIL
