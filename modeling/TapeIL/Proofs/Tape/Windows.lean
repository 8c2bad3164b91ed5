import TapeIL.Proofs.Machine.Memory
import TapeIL.Proofs.Tape.Semantics
import TapeIL.Tape.Window

/-! What the windows of compiled code do to a frame that carries a tape state. Each window either
leaves the state that its action makes, or faults with the outcome its action ends in.
-/

namespace TapeIL

variable {σ : Type}

namespace Tape

/-- The fault that a compiled program stops with. -/
def Outcome.fault? : Outcome → Option Fault
  | .finished => none
  | .outOfRange pointer cells => some (.outOfRange pointer cells)
  | .console cause => some (.console cause)

/-- The frame of compiled code with the given tape, pointer and key on an empty stack. -/
def frame (cells : Cells) (pointer : Int32) (key : UInt16) (s : σ) : Frame σ :=
  ⟨[], #[.array (some 0), .int pointer, .key key], #[cells], s⟩

/-- The locals and the heap of a frame carry the state of a tape program. -/
def Carries (f : Frame σ) (t : State σ) : Prop :=
  ∃ cells key,
    f.locals = #[.array (some 0), .int t.pointer, .key key]
    ∧ f.heap = #[cells]
    ∧ cells.bytes = t.cells
    ∧ f.console = t.console

/-- Whether the pointer is at a cell, in terms of the array that holds the cells. -/
theorem current?_eq {t : State σ} {cells : Cells} (h : cells.bytes = t.cells)
    : t.current?
      = if 0 ≤ t.pointer.toInt ∧ t.pointer.toInt < cells.length then
          some (cells.get t.pointer.toInt.toNat)
        else none := by
  rw [State.current?, ← h, Cells.getElem?_bytes]
  split <;> split <;> grind

theorem toUInt8_one : Int8.toUInt8 1 = 1 :=
  rfl

section Windows

open Exec

variable (c : Console σ) (cells : Cells) (pointer : Int32) (key : UInt16) (s : σ)

attribute [local simp] block on_bind effect loadLocal storeLocal loadLocalRef arithmetic convert
  Instruction.slot? Instruction.int? popIndexed_on Heap.arrayOf Heap.load Heap.store frame

theorem moveRight_on
    : (block c (Window.move .add)).on (frame cells pointer key s)
      = (.ok (), frame cells (pointer + 1) key s) := by
  simp [Window.move]

theorem moveLeft_on
    : (block c (Window.move .sub)).on (frame cells pointer key s)
      = (.ok (), frame cells (pointer - 1) key s) := by
  simp [Window.move]

/-- An update changes the current cell, if there is one. -/
theorem update_on {op : OpCode} {change : UInt8 → UInt8}
    (h : (op = .add ∧ change = (· + 1)) ∨ (op = .sub ∧ change = (· - 1)))
    : (block c (Window.update op)).on (frame cells pointer key s)
      = if 0 ≤ pointer.toInt ∧ pointer.toInt < cells.length then
          (.ok (),
            frame
              (cells.set pointer.toInt.toNat (change (cells.get pointer.toInt.toNat)))
              pointer key s)
        else (.error (.outOfRange pointer cells.length), frame cells pointer key s) := by
  -- The low byte of a sum is kept as a sum of bytes, which reads back as itself.
  have low := toUInt8_one
  by_cases inside : 0 ≤ pointer.toInt ∧ pointer.toInt < cells.length
  · rcases h with ⟨rfl, rfl⟩ | ⟨rfl, rfl⟩ <;>
      simp [Window.update, inside, low, -UInt8.toNat_add]
  · simp [Window.update, inside]

theorem call_consoleWrite : call c .consoleWrite = consoleWrite c := by
  simp [call]

theorem call_consoleReadKey : call c .consoleReadKey = consoleReadKey c := by
  have other : MethodRef.consoleReadKey.signature ≠ MethodRef.consoleWrite.signature := by decide
  simp [call, other]

theorem call_keyChar : call c .keyChar = keyChar := by
  have first : MethodRef.keyChar.signature ≠ MethodRef.consoleWrite.signature := by decide
  have second : MethodRef.keyChar.signature ≠ MethodRef.consoleReadKey.signature := by decide
  simp [call, first, second]

/-- Output shows the current cell to the console, if there is one. -/
theorem output_on
    : (block c Window.output).on (frame cells pointer key s)
      = if 0 ≤ pointer.toInt ∧ pointer.toInt < cells.length then
          let answer := c.write (cells.get pointer.toInt.toNat).toUInt16 s
          (answer.1.mapError .console, frame cells pointer key answer.2)
        else (.error (.outOfRange pointer cells.length), frame cells pointer key s) := by
  by_cases inside : 0 ≤ pointer.toInt ∧ pointer.toInt < cells.length
  · simp [Window.output, inside, Instruction.methodOperand, Instruction.method?,
      call_consoleWrite, consoleWrite]
  · simp [Window.output, inside]

/-- A key is stored modulo what a byte has room for. -/
theorem ofNat_mod_key (unit : UInt16) : UInt8.ofNat (unit.toNat % 256) = unit.toUInt8 := by
  rw [← UInt8.toNat_inj, UInt16.toNat_toUInt8]
  exact Nat.mod_mod _ _

/-- Input reads a key before it looks for the current cell. -/
theorem input_on (intercept : Bool)
    : ∃ stack,
        (block c (Window.input intercept)).on (frame cells pointer key s)
          = match c.readKey intercept s with
            | (.error e, next) =>
                (.error (.console e), { frame cells pointer key next with stack })
            | (.ok unit, next) =>
                if 0 ≤ pointer.toInt ∧ pointer.toInt < cells.length then
                  (.ok (), frame (cells.set pointer.toInt.toNat unit.toUInt8) pointer unit next)
                else (.error (.outOfRange pointer cells.length),
                  frame cells pointer unit next) := by
  refine ⟨[.int pointer, .array (some 0)], ?_⟩
  rcases hk : c.readKey intercept s with ⟨_ | _, next⟩
  · cases intercept <;>
      simp [Window.input, Instruction.methodOperand, Instruction.method?, call_consoleReadKey,
        consoleReadKey, hk, Except.mapError]
  · by_cases inside : 0 ≤ pointer.toInt ∧ pointer.toInt < cells.length <;> cases intercept <;>
      simp [Window.input, Instruction.methodOperand, Instruction.method?, call_consoleReadKey,
        consoleReadKey, call_keyChar, keyChar, pushChar, hk, Except.mapError, inside, ofNat_mod_key]

/-- The part of a loop's end that fetches the cell to be tested. -/
def test : List Instruction :=
  [⟨.nop, .none⟩, ⟨.ldloc0, .none⟩, ⟨.ldloc1, .none⟩, ⟨.ldelemU1, .none⟩]

theorem test_on
    : (block c test).on (frame cells pointer key s)
      = if 0 ≤ pointer.toInt ∧ pointer.toInt < cells.length then
          (.ok (),
            { frame cells pointer key s with
              stack := [.int (Int32.ofNat (cells.get pointer.toInt.toNat).toNat)] })
        else (.error (.outOfRange pointer cells.length), frame cells pointer key s) := by
  by_cases inside : 0 ≤ pointer.toInt ∧ pointer.toInt < cells.length <;> simp [test, inside]

/-- The prologue allocates zeroed cells and leaves the pointer at the first. -/
theorem prologue_on {count : Int32} (positive : 0 ≤ count.toInt)
    : (block c (Window.prologue count)).on
          ⟨[], (Window.locals.map Value.initial).toArray, #[], s⟩
      = (.ok (), frame ⟨count.toInt.toNat, {}⟩ 0 0 s) := by
  have locals : (Window.locals.map Value.initial).toArray
      = #[.array none, .int 0, .key 0] := by
    decide
  have notNegative : ¬ count.toInt < 0 := by omega
  simp [Window.prologue, locals, newArray, notNegative, Instruction.typeOperand,
    Instruction.type?]

end Windows

/-- What a window has left is what an action should: the same state and, if the action ends the
run, the fault that belongs to its outcome.
-/
def Meets (result : Except Fault Unit × Frame σ) (expected : Option Outcome × State σ) : Prop :=
  Carries result.2 expected.2
  ∧ match expected.1 with
    | none => result.1 = .ok () ∧ result.2.stack = []
    | some outcome => ∃ e, outcome.fault? = some e ∧ result.1 = .error e

theorem carries_frame {t : State σ} {cells : Cells} (key : UInt16) (h : cells.bytes = t.cells)
    : Carries (frame cells t.pointer key t.console) t :=
  ⟨cells, key, rfl, rfl, h, rfl⟩

/-- A frame with an empty stack that carries a state is built from the state's cells. -/
theorem Carries.eq_frame {f : Frame σ} {t : State σ} (h : Carries f t) (empty : f.stack = [])
    : ∃ cells key, cells.bytes = t.cells ∧ f = frame cells t.pointer key t.console := by
  obtain ⟨cells, key, hl, hh, hb, hc⟩ := h
  refine ⟨cells, key, hb, ?_⟩
  cases f
  simp_all [frame]

/-- Code that checks the pointer against the array meets an action that touches a cell. -/
theorem meets_touch {t : State σ} {cells : Cells} (key : UInt16) (hb : cells.bytes = t.cells)
    {use : UInt8 → Option Outcome × State σ} {done : Except Fault Unit × Frame σ}
    (inside : Meets done (use (cells.get t.pointer.toInt.toNat)))
    : Meets
        (if 0 ≤ t.pointer.toInt ∧ t.pointer.toInt < cells.length then done
          else (.error (.outOfRange t.pointer cells.length),
            frame cells t.pointer key t.console))
        (t.touch use) := by
  rw [State.touch, current?_eq hb]
  split
  · exact inside
  · refine ⟨carries_frame key hb, _, ?_, rfl⟩
    rw [State.outside, ← hb, Cells.length_bytes]
    rfl

/-- The window of an action meets the action, by cases on the action. -/
theorem perform_window (c : Console σ) (intercept : Bool) (a : Action) {t : State σ}
    {f : Frame σ} (carried : Carries f t) (empty : f.stack = [])
    : Meets ((Exec.block c (Window.ofCommand intercept 0 a.command)).on f)
        (t.perform c intercept a) := by
  obtain ⟨cells, key, hb, rfl⟩ := carried.eq_frame empty
  have stored (b : UInt8) : (cells.set t.pointer.toInt.toNat b).bytes = (t.store b).cells := by
    rw [Cells.bytes_set, hb]
    rfl
  cases a with
  | moveRight =>
      simp only [Action.command, Window.ofCommand, moveRight_on]
      exact ⟨⟨cells, key, rfl, rfl, hb, rfl⟩, rfl, rfl⟩
  | moveLeft =>
      simp only [Action.command, Window.ofCommand, moveLeft_on]
      exact ⟨⟨cells, key, rfl, rfl, hb, rfl⟩, rfl, rfl⟩
  | increment =>
      simp only [Action.command, Window.ofCommand, update_on _ _ _ _ _ (.inl ⟨rfl, rfl⟩)]
      exact meets_touch key hb ⟨carries_frame key (stored _), rfl, rfl⟩
  | decrement =>
      simp only [Action.command, Window.ofCommand, update_on _ _ _ _ _ (.inr ⟨rfl, rfl⟩)]
      exact meets_touch key hb ⟨carries_frame key (stored _), rfl, rfl⟩
  | output =>
      cases hw : c.write (cells.get t.pointer.toInt.toNat).toUInt16 t.console with
      | mk answer next =>
          simp only [Action.command, Window.ofCommand, output_on, hw]
          apply meets_touch key hb
          simp only [hw]
          cases answer with
          | error e => exact ⟨⟨cells, key, rfl, rfl, hb, rfl⟩, _, rfl, rfl⟩
          | ok _ => exact ⟨⟨cells, key, rfl, rfl, hb, rfl⟩, rfl, rfl⟩
  | input =>
      obtain ⟨stack, window⟩ := input_on c cells t.pointer key t.console intercept
      simp only [Action.command, Window.ofCommand, window, State.perform]
      cases c.readKey intercept t.console with
      | mk answer next =>
          cases answer with
          | error e => exact ⟨⟨cells, key, rfl, rfl, hb, rfl⟩, _, rfl, rfl⟩
          | ok unit =>
              exact meets_touch (t := { t with console := next }) unit hb
                ⟨⟨_, unit, rfl, rfl, stored unit.toUInt8, rfl⟩, rfl, rfl⟩

end Tape
end TapeIL
