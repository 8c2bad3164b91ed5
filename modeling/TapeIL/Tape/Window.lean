import TapeIL.IL.Body
import TapeIL.Tape.Program

/-!
The instruction window of each command. Compiled code is a prologue, one window for each command
in order, and a `ret`; compiling writes the windows and decompiling recognises them by their
opcodes.
-/

namespace TapeIL.Window

/-- The locals of compiled code: the tape, the pointer into it, and the last key press. -/
def locals : List TypeRef :=
  [.byteArray, .int32, .keyInfo]

/-- Allocates the tape and sets the pointer to its start. -/
def prologue (cells : Int32) : List Instruction :=
  [⟨.ldcI4, .int cells⟩, ⟨.newarr, .type .byte⟩, ⟨.stloc0, .none⟩, ⟨.ldcI4Zero, .none⟩,
    ⟨.stloc1, .none⟩]

/-- Moves the pointer by one. -/
def move (op : OpCode) : List Instruction :=
  [⟨.ldloc1, .none⟩, ⟨.ldcI4One, .none⟩, ⟨op, .none⟩, ⟨.stloc1, .none⟩]

/-- Changes the current cell by one. -/
def update (op : OpCode) : List Instruction :=
  [⟨.ldloc0, .none⟩, ⟨.ldloc1, .none⟩, ⟨.ldelema, .type .byte⟩, ⟨.dup, .none⟩, ⟨.ldindU1, .none⟩,
    ⟨.ldcI4One, .none⟩, ⟨op, .none⟩, ⟨.convU1, .none⟩, ⟨.stindI1, .none⟩]

/-- Writes the current cell. -/
def output : List Instruction :=
  [⟨.ldloc0, .none⟩, ⟨.ldloc1, .none⟩, ⟨.ldelemU1, .none⟩, ⟨.call, .method .consoleWrite⟩]

/-- Reads a key and stores its character in the current cell. -/
def input (intercept : Bool) : List Instruction :=
  [⟨.ldloc0, .none⟩, ⟨.ldloc1, .none⟩, ⟨if intercept then .ldcI4One else .ldcI4Zero, .none⟩,
    ⟨.call, .method .consoleReadKey⟩, ⟨.stloc2, .none⟩, ⟨.ldlocaS, .slot 2⟩,
    ⟨.call, .method .keyChar⟩, ⟨.convU1, .none⟩, ⟨.stelemI1, .none⟩]

/-- Goes to the test at the end of the loop, whose window is at `close`. -/
def loopStart (close : Nat) : List Instruction :=
  [⟨.br, .target (.position close)⟩, ⟨.nop, .none⟩]

/-- Goes back into the loop, whose start window is at `start`, unless the current cell is zero. -/
def loopEnd (start : Nat) : List Instruction :=
  [⟨.nop, .none⟩, ⟨.ldloc0, .none⟩, ⟨.ldloc1, .none⟩, ⟨.ldelemU1, .none⟩,
    ⟨.brtrue, .target (.position (start + 1))⟩]

/-- The window of a command. `partner` is where the window of the matching bracket is. -/
def ofCommand (intercept : Bool) (partner : Nat) : Command → List Instruction
  | .moveRight => move .add
  | .moveLeft => move .sub
  | .increment => update .add
  | .decrement => update .sub
  | .output => output
  | .input => input intercept
  | .loopStart => loopStart partner
  | .loopEnd => loopEnd partner

/-- How many instructions the window of a command has. -/
def length : Command → Nat
  | .moveRight | .moveLeft | .output => 4
  | .increment | .decrement | .input => 9
  | .loopStart => 2
  | .loopEnd => 5

/-- The opcodes of a window, which do not depend on where its brackets are. -/
def opcodes (intercept : Bool) (c : Command) : List OpCode :=
  (ofCommand intercept 0 c).map Instruction.op

/-- Every command with every setting of its flag. -/
def all : List (Command × Bool) :=
  Command.all.flatMap fun c => [(c, true), (c, false)]

end TapeIL.Window
