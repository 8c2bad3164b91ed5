import TapeIL.Tape.Window

/-!
Recovery of a tape program from compiled code. The opcodes have to be the prologue and then whole
command windows up to a `ret` or the end of the body; operands are not looked at, except for the
tape's element type and length.
-/

namespace TapeIL

inductive DecompileError where
  | noPrologue
  | elementType (type : TypeRef)
  | unexpected (index : Nat) (op : OpCode)
deriving DecidableEq, Repr, Inhabited

def DecompileError.message : DecompileError → Bytes
  | .noPrologue => text "unexpected method prologue"
  | .elementType type =>
      text "unexpected method prologue: tape element type " ++ type.fullName
  | .unexpected index op =>
      text "unexpected opcode (" ++ Bytes.decimal index ++ text "): " ++ op.name

structure Decompilation where
  program : Program
  cells : Int
  intercept : Bool
deriving DecidableEq, Repr, Inhabited

namespace Tape

/-- Whether the instructions begin with the given opcodes. -/
def beginsWith : List OpCode → List Instruction → Bool
  | [], _ => true
  | _ :: _, [] => false
  | op :: ops, i :: rest => op == i.op && beginsWith ops rest

/-- The command, with its flag, whose window the instructions begin with. -/
def window? (code : List Instruction) : Option (Command × Bool) :=
  Window.all.find? fun (c, intercept) => beginsWith (Window.opcodes intercept c) code

/--
The commands whose windows follow each other in the code. `index` is the position of the first
instruction and `skip` the number of instructions that belong to a window already recognised.
-/
def windows (index skip : Nat) : List Instruction → Except DecompileError (List (Command × Bool))
  | [] => .ok []
  | i :: rest =>
      match skip with
      | skip + 1 => windows (index + 1) skip rest
      | 0 =>
          if i.op = .ret then .ok []
          else
            match window? (i :: rest) with
            | none => .error (.unexpected index i.op)
            | some w => (windows (index + 1) (Window.length w.1 - 1) rest).map (w :: ·)

/-- The flag of the last input window; false if there is none. -/
def lastIntercept (ws : List (Command × Bool)) : Bool :=
  ws.foldl (fun last (c, intercept) => if c = .input then intercept else last) false

end Tape

def Body.decompile (b : Body) : Except DecompileError Decompilation := do
  let code := b.code.toList
  match code with
  | first :: second :: _ =>
      let prologue := (Window.prologue 0).map Instruction.op
      if !Tape.beginsWith prologue code then throw .noPrologue
      let type := second.typeOperand
      if type ≠ .byte then throw (.elementType type)
      let ws ← Tape.windows prologue.length 0 (code.drop prologue.length)
      return {
        program := { tokens := ws.map fun (c, _) => .ofCommand c }
        cells := (first.int?.getD 0).toInt
        intercept := Tape.lastIntercept ws }
  | _ => throw .noPrologue

end TapeIL
