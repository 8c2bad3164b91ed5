import TapeIL.IL.Body
import TapeIL.Machine.Fault

/-!
The meaning of single instructions. An instruction that faults keeps what it has taken from the
stack and what it has done to the console, but changes no local and no array.
-/

namespace TapeIL

/-- What instructions work on. The top of the stack is its first element. -/
structure Frame (σ : Type) where
  stack : List Value := []
  locals : Array Value := #[]
  heap : Heap := #[]
  console : σ

/-- Where control goes after an instruction, and whether the method returns there. -/
structure Next where
  pc : Nat
  returned : Bool := false
deriving DecidableEq, Repr, Inhabited

/-- A computation on a frame that may fault. The frame outlives the fault. -/
abbrev Exec (σ : Type) := ExceptT Fault (StateM (Frame σ))

namespace Exec

variable {σ : Type}

def push (v : Value) : Exec σ Unit :=
  modify fun f => { f with stack := v :: f.stack }

def pop : Exec σ Value := do
  match (← get).stack with
  | [] => throw .underflow
  | v :: rest =>
      modify fun f => { f with stack := rest }
      return v

def popInt : Exec σ Int32 := do
  match ← pop with
  | .int value => return value
  | v => throw (.kindMismatch .int v.kind)

def popArray : Exec σ (Option Nat) := do
  match ← pop with
  | .array ref => return ref
  | v => throw (.kindMismatch .array v.kind)

def popElement : Exec σ (Nat × Nat) := do
  match ← pop with
  | .element ref index => return (ref, index)
  | v => throw (.kindMismatch .element v.kind)

/-- The element of an array at an index, which has to be inside. -/
def element (ref : Option Nat) (index : Int32) : Exec σ (Nat × Nat) := do
  let length := ((← get).heap.arrayOf ref).length
  match ref with
  | some r =>
      if 0 ≤ index.toInt ∧ index.toInt < length then return (r, index.toInt.toNat)
      else throw (.outOfRange index length)
  | none => throw (.outOfRange index length)

/-- Takes an index and an array, which has to have an element there. -/
def popIndexed : Exec σ (Nat × Nat) := do
  let index ← popInt
  let ref ← popArray
  element ref index

/-- The value of a declared local. -/
def localValue (slot : UInt8) : Exec σ Value := do
  match (← get).locals[slot.toNat]? with
  | some v => return v
  | none => throw (.undeclaredLocal slot)

def loadLocal (slot : UInt8) : Exec σ Unit := do
  push (← localValue slot)

def setLocal (slot : UInt8) (v : Value) : Exec σ Unit :=
  modify fun f => { f with locals := f.locals.setIfInBounds slot.toNat v }

def storeLocal (slot : UInt8) : Exec σ Unit := do
  let _ ← localValue slot
  setLocal slot (← pop)

def loadLocalRef (slot : UInt8) : Exec σ Unit := do
  let _ ← localValue slot
  push (.localRef slot)

def arithmetic (operation : Int32 → Int32 → Int32) : Exec σ Unit := do
  let b ← popInt
  let a ← popInt
  push (.int (operation a b))

def convert (conversion : Int32 → Int32) : Exec σ Unit := do
  let a ← popInt
  push (.int (conversion a))

/-- Makes an array of zeros, and leaves its reference on the stack. -/
def allocate (length : Nat) : Exec σ Unit := do
  let ref := (← get).heap.size
  modify fun f => { f with heap := f.heap.push { length } }
  push (.array (some ref))

def newArray (type : TypeRef) : Exec σ Unit := do
  if type ≠ .byte then throw (.elementType type)
  let length ← popInt
  if length.toInt < 0 then throw (.negativeLength length)
  allocate length.toInt.toNat

/-- Stores the low byte of a number in an array. -/
def storeByte (ref index : Nat) (value : Int32) : Exec σ Unit :=
  modify fun f => { f with heap := f.heap.store ref index value.toInt8.toUInt8 }

def loadByte (ref index : Nat) : Exec σ Unit := do
  push (.int (Int32.ofNat ((← get).heap.load ref index).toNat))

/-- Lets the console answer. -/
def consult {α : Type} (answer : σ → Except ConsoleError α × σ) : Exec σ α := do
  let (result, console) := answer (← get).console
  modify fun f => { f with console }
  match result with
  | .ok a => return a
  | .error e => throw (.console e)

def consoleWrite (c : Console σ) : Exec σ Unit := do
  let unit ← popInt
  consult (c.write unit.toInt16.toUInt16)

def consoleReadKey (c : Console σ) : Exec σ Unit := do
  let intercept ← popInt
  let key ← consult (c.readKey (intercept != 0))
  push (.key key)

/-- The constructor needs an object, and no instruction makes one. -/
def objectCtor : Exec σ Unit := do
  let v ← pop
  throw (.kindMismatch .object v.kind)

/-- Leaves the character of a key on the stack. -/
def pushChar : Value → Exec σ Unit
  | .key char => push (.int (Int32.ofNat char.toNat))
  | v => throw (.notKeyInfo v.kind)

def keyChar : Exec σ Unit := do
  let receiver ←
    match ← pop with
    | .localRef slot => localValue slot
    | v => pure v
  pushChar receiver

/-- Calls are told apart by their printed signature. -/
def call (c : Console σ) (method : MethodRef) : Exec σ Unit :=
  let signature := method.signature
  if signature = MethodRef.consoleWrite.signature then consoleWrite c
  else if signature = MethodRef.consoleReadKey.signature then consoleReadKey c
  else if signature = MethodRef.keyChar.signature then keyChar
  else if signature = MethodRef.objectCtor.signature then objectCtor
  else throw (.unknownMethod signature)

/-- Goes to the branch target of an instruction. -/
def jump (body : Body) (i : Instruction) : Exec σ Next :=
  match body.branch? i with
  | some index => return { pc := index }
  | none => throw .branchOutside

/-- Branches unless the number zero is on the stack. -/
def jumpIfTrue (body : Body) (pc : Nat) (i : Instruction) : Exec σ Next := do
  match ← pop with
  | .int value => if value = 0 then return { pc := pc + 1 } else jump body i
  | _ => jump body i

/-- The effect of an instruction that leaves control to the one behind it. -/
def effect (c : Console σ) (i : Instruction) : Exec σ Unit :=
  match i.op with
  | .nop => pure ()
  | .ldarg0 => throw .noArgument
  | .ldloc0 | .ldloc1 | .ldloc2 => loadLocal (i.slot?.getD 0)
  | .stloc0 | .stloc1 | .stloc2 => storeLocal (i.slot?.getD 0)
  | .ldlocaS => loadLocalRef (i.slot?.getD 0)
  | .ldcI4Zero | .ldcI4One | .ldcI4 => push (.int (i.int?.getD 0))
  | .dup => do
      let v ← pop
      push v
      push v
  | .call => call c i.methodOperand
  | .ldindU1 => do
      let (ref, index) ← popElement
      loadByte ref index
  | .stindI1 => do
      let value ← popInt
      let (ref, index) ← popElement
      storeByte ref index value
  | .add => arithmetic (· + ·)
  | .sub => arithmetic (· - ·)
  | .convU1 => convert fun v => Int32.ofNat v.toInt8.toUInt8.toNat
  | .convU2 => convert fun v => Int32.ofNat v.toInt16.toUInt16.toNat
  | .newarr => newArray i.typeOperand
  | .ldelema => do
      let (ref, index) ← popIndexed
      push (.element ref index)
  | .ldelemU1 => do
      let (ref, index) ← popIndexed
      loadByte ref index
  | .stelemI1 => do
      let value ← popInt
      let (ref, index) ← popIndexed
      storeByte ref index value
  | .ret | .br | .brtrue => pure ()
  | .unknown _ => throw (.unsupported i.op)

/-- Runs the instruction at `pc`. -/
def instruction (c : Console σ) (body : Body) (pc : Nat) (i : Instruction) : Exec σ Next :=
  match i.op with
  | .br => jump body i
  | .brtrue => jumpIfTrue body pc i
  | .ret => return { pc := pc + 1, returned := true }
  | _ => do
      effect c i
      return { pc := pc + 1 }

end Exec
end TapeIL
