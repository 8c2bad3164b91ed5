import TapeIL.Machine.Display
import TapeIL.Proofs.Machine.Run

/-! A machine that checks its accesses. Instructions, locals, arrays and cells are accessed by an
index, and every such access can be one outside of what is accessed, here and in the display. A tick
also prints the instruction that it has executed, and for that it accesses the branch target.
-/

namespace TapeIL

variable {σ α : Type}

/-- An access to what is not there. -/
inductive Violation where
  /-- An index outside of what has `length` items. -/
  | outside (index : Int) (length : Nat)
  | unsetTarget
deriving DecidableEq, Repr

/-- A computation on a frame that may fault, and whose accesses may be to what is not there. -/
abbrev Checked (σ : Type) := ExceptT Fault (StateT (Frame σ) (Except Violation))

namespace Checked

------------------------------------------------------------------------------------------
-- accesses
------------------------------------------------------------------------------------------

def item (xs : Array α) (i : Nat) : Except Violation α :=
  match xs[i]? with
  | some x => .ok x
  | none => .error (.outside i xs.size)

def cell (cells : Cells) (i : Int) : Except Violation UInt8 :=
  if 0 ≤ i ∧ i < cells.length then .ok (cells.get i.toNat)
  else .error (.outside i cells.length)

/-- The cells with another byte at an index. -/
def withCell (cells : Cells) (i : Nat) (b : UInt8) : Except Violation Cells :=
  if i < cells.length then .ok (cells.set i b) else .error (.outside i cells.length)

------------------------------------------------------------------------------------------
-- instructions
------------------------------------------------------------------------------------------

/-- A computation that accesses nothing by an index. -/
def plain (x : Exec σ α) : Checked σ α :=
  ExceptT.mk fun f => .ok (x.on f)

/-- The value of a declared local. -/
def localValue (slot : UInt8) : Checked σ Value := do
  let f ← get
  if f.locals.size ≤ slot.toNat then throw (.undeclaredLocal slot)
  else item f.locals slot.toNat

def loadLocal (slot : UInt8) : Checked σ Unit := do
  let v ← localValue slot
  plain (Exec.push v)

def storeLocal (slot : UInt8) : Checked σ Unit := do
  let _ ← localValue slot
  let v ← plain Exec.pop
  plain (Exec.setLocal slot v)

def loadLocalRef (slot : UInt8) : Checked σ Unit := do
  let _ ← localValue slot
  plain (Exec.push (.localRef slot))

def loadByte (ref index : Nat) : Checked σ Unit := do
  let f ← get
  let cells ← item f.heap ref
  let b ← cell cells index
  plain (Exec.push (.int (Int32.ofNat b.toNat)))

/-- Stores the low byte of a number in an array. -/
def storeByte (ref index : Nat) (value : Int32) : Checked σ Unit := do
  let f ← get
  let cells ← item f.heap ref
  let cells ← withCell cells index value.toInt8.toUInt8
  plain (modify fun f => { f with heap := f.heap.setIfInBounds ref cells })

def keyChar : Checked σ Unit := do
  let receiver ←
    match ← plain Exec.pop with
    | .localRef slot => localValue slot
    | v => pure v
  plain (Exec.pushChar receiver)

def call (c : Console σ) (method : MethodRef) : Checked σ Unit :=
  if method.signature = MethodRef.keyChar.signature then keyChar else plain (Exec.call c method)

/-- The effect of an instruction that leaves control to the one behind it. -/
def effect (c : Console σ) (i : Instruction) : Checked σ Unit :=
  match i.op with
  | .ldloc0 | .ldloc1 | .ldloc2 => loadLocal (i.slot?.getD 0)
  | .stloc0 | .stloc1 | .stloc2 => storeLocal (i.slot?.getD 0)
  | .ldlocaS => loadLocalRef (i.slot?.getD 0)
  | .call => call c i.methodOperand
  | .ldindU1 => do
      let (ref, index) ← plain Exec.popElement
      loadByte ref index
  | .stindI1 => do
      let value ← plain Exec.popInt
      let (ref, index) ← plain Exec.popElement
      storeByte ref index value
  | .ldelemU1 => do
      let (ref, index) ← plain Exec.popIndexed
      loadByte ref index
  | .stelemI1 => do
      let value ← plain Exec.popInt
      let (ref, index) ← plain Exec.popIndexed
      storeByte ref index value
  | _ => plain (Exec.effect c i)

/-- Runs the instruction at `pc`. -/
def instruction (c : Console σ) (body : Body) (pc : Nat) (i : Instruction) : Checked σ Next :=
  if i.isStraight then do
    effect c i
    return { pc := pc + 1 }
  else plain (Exec.instruction c body pc i)

------------------------------------------------------------------------------------------
-- machines
------------------------------------------------------------------------------------------

/-- Executes an instruction and counts it, whether it faults or not. -/
def execute (c : Console σ) (m : Machine) (s : σ) (i : Instruction)
    : Except Violation (Machine × σ) := do
  let (result, f) ← (instruction c m.body m.pc i).run.run (m.frame s)
  match result with
  | .ok next =>
      return ({ m.advance 1 f with
        pc := next.pc
        status := if next.returned then .returned else .running }, f.console)
  | .error fault => return (m.fail f i.op fault, f.console)

/-- The text of an instruction, with the mnemonic found at its branch target. -/
def describe (b : Body) (i : Instruction) : Except Violation Bytes :=
  match i.operand with
  | .target .unset => .error .unsetTarget
  | _ => .ok (i.toText b.mnemonic)

/-- One tick, with what it comes to. The instruction is printed behind its execution, and before a
fault of it is recorded.
-/
def tick (c : Console σ) (m : Machine) (s : σ) : Except Violation (Machine.Turn × Machine × σ) :=
  match m.status with
  | .running =>
      if m.atLimit then
        return (.rest, { m with status := .failed (.stepLimit (m.limit.getD 0)) }, s)
      else if m.body.size ≤ m.pc then return (.rest, { m with status := .failed .pastEnd }, s)
      else do
        let i ← item m.body.code m.pc
        let next ← execute c m s i
        let _ ← describe m.body i
        return (.step, next)
  | _ => return (.rest, m, s)

------------------------------------------------------------------------------------------
-- the display
------------------------------------------------------------------------------------------

/-- The array that a value is a reference to. -/
def arrayRef? : Value → Option Nat
  | .array ref => ref
  | _ => none

/-- The tape: the first array that a local refers to. -/
def tape? (m : Machine) : Except Violation (Option Cells) := do
  match m.locals.toList.findSome? arrayRef? with
  | some ref => return some (← item m.heap ref)
  | none => return none

/-- The indices from the first one of the window up to its end. -/
def window (pointer : Int) (length : Nat) : List Int :=
  let lo := max (pointer - Machine.tapeWindow) 0
  let hi := min (pointer + Machine.tapeWindow + 1) length
  (List.range (hi - lo).toNat).map fun (k : Nat) => lo + k

def tapeTable (m : Machine) (tape : Cells) : Except Violation Table := do
  let pointer := m.pointer
  let indices := window pointer tape.length
  let values ← indices.mapM (cell tape)
  let heading (i : Int) : Bytes :=
    if i = pointer then text "*" ++ Bytes.decimalInt i else Bytes.decimalInt i
  return {
    title := text "Tape (" ++ Bytes.decimal tape.length ++ text " cells)"
    header := text "Cell" :: indices.map heading
    rows := [.words (text "Value") :: values.map fun b => .number (Bytes.decimal b.toNat)] }

/-- The whole display, under the name of the machine. -/
def display (name : Bytes) (m : Machine) : Except Violation Bytes := do
  let tables ←
    match ← tape? m with
    | some tape => do pure [(← tapeTable m tape).toText]
    | none => pure []
  let parts :=
    [text "==============State@" ++ name ++ text "==============",
      m.registers.toText, m.localTable.toText, m.stackLine]
      ++ tables
      ++ [text "================================================"]
  return parts.flatMap (· ++ text "\n")

end Checked
end TapeIL
