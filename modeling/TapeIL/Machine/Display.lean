import TapeIL.Machine.Basic
import TapeIL.Text.Table

/-!
The state of a machine as text: registers, locals, stack, and the tape around the pointer.
-/

namespace TapeIL.Machine

/-- How many cells are shown on each side of the pointer. -/
def tapeWindow : Int := 8

def registers (m : Machine) : Table :=
  { title := text "Registers"
    header := [text "PC", text "Steps", text "Halted", text "Error"]
    rows := [[.number (Bytes.decimal m.pc), .number (Bytes.decimal m.steps),
      .words (Bytes.boolean m.halted), .words ((m.error?.map Failure.message).getD [])]] }

def localTable (m : Machine) : Table :=
  { title := text "Locals"
    header := [text "Slot", text "Value"]
    rows := m.locals.toList.mapIdx fun i v =>
      [.words (text "V_" ++ Bytes.decimal i), .words (v.toText m.heap)] }

/-- The stack from its bottom to its top. -/
def stackLine (m : Machine) : Bytes :=
  text "Stack: [" ++ Bytes.join (text " ") (m.stack.reverse.map (Value.toText m.heap)) ++ text "]"

/-- The indices of the cells in the window around the pointer. -/
def windowIndices (pointer : Int) (length : Nat) : List Nat :=
  let lo := max (pointer - tapeWindow) 0
  let hi := min (pointer + tapeWindow + 1) length
  (List.range (hi - lo).toNat).map (lo.toNat + ·)

def tapeTable (m : Machine) (tape : Cells) : Table :=
  let pointer := m.pointer
  let indices := windowIndices pointer tape.length
  let heading (i : Nat) : Bytes :=
    if (i : Int) = pointer then text "*" ++ Bytes.decimal i else Bytes.decimal i
  { title := text "Tape (" ++ Bytes.decimal tape.length ++ text " cells)"
    header := text "Cell" :: indices.map heading
    rows := [.words (text "Value")
      :: indices.map fun i => .number (Bytes.decimal (tape.get i).toNat)] }

/-- The whole display, under the name of the machine. -/
def display (name : Bytes) (m : Machine) : Bytes :=
  let parts :=
    [text "==============State@" ++ name ++ text "==============",
      m.registers.toText, m.localTable.toText, m.stackLine]
      ++ (match m.tape? with
        | some tape => [(m.tapeTable tape).toText]
        | none => [])
      ++ [text "================================================"]
  parts.flatMap (· ++ text "\n")

end TapeIL.Machine
