import TapeIL.IL.Instruction

/-!
Method bodies: local variable types and instructions, with byte offsets, labels and the comparison
of two bodies.
-/

namespace TapeIL

structure Body where
  locals : List TypeRef := []
  code : Array Instruction := #[]
deriving DecidableEq, Repr, Inhabited

/-- A branch that leads nowhere. -/
inductive TargetError where
  | missing (index : Nat) (op : OpCode)
  | outside (index : Nat) (op : OpCode)
deriving DecidableEq, Repr, Inhabited

def TargetError.message : TargetError → Bytes
  | .missing index op =>
      text "instruction " ++ Bytes.decimal index ++ text " (" ++ op.name
        ++ text ") has no branch target"
  | .outside index op =>
      text "instruction " ++ Bytes.decimal index ++ text " (" ++ op.name
        ++ text ") branches outside the method body"

namespace Body

def size (b : Body) : Nat :=
  b.code.size

/-- The offsets of instructions laid out from `start`, and then the offset behind the last. -/
def offsetsFrom (start : Nat) : List Instruction → List Nat
  | [] => [start]
  | i :: rest => start :: offsetsFrom (start + i.size) rest

/-- The byte offset of every instruction, and then the size of the code. -/
def offsets (b : Body) : List Nat :=
  offsetsFrom 0 b.code.toList

def codeSize (b : Body) : Nat :=
  b.code.toList.foldr (fun i size => i.size + size) 0

/-- The position a branch target denotes, if it is inside the body. -/
def resolve? (b : Body) : Target → Option Nat
  | .position index => if index < b.size then some index else none
  | .outside _ | .unset => none

/-- The position an instruction branches to. -/
def branch? (b : Body) (i : Instruction) : Option Nat :=
  i.target?.bind b.resolve?

/-- The name of the instruction at a byte offset. -/
def offsetLabel (offset : Nat) : Bytes :=
  text "IL_" ++ Bytes.hex 4 offset

/-- Names a branch target by its offset. -/
def label (b : Body) : Target → Bytes :=
  let offsets := b.offsets.toArray
  fun target =>
    match b.resolve? target with
    | some index => offsetLabel (offsets[index]?.getD 0)
    | none => text "IL_????"

/-- Names a branch target by the mnemonic found there. At one that is unset there is none, and
instructions with such a target do not print.
-/
def mnemonic (b : Body) : Target → Bytes
  | .position index => ((b.code[index]?).map fun i => i.op.name).getD []
  | .outside op => op.name
  | .unset => []

/-- One line for each instruction: offset, mnemonic and operand. -/
def toText (b : Body) : Bytes :=
  let label := b.label
  (b.code.toList.zip b.offsets).flatMap fun (i, offset) =>
    offsetLabel offset ++ text ": " ++ i.toText label ++ text "\n"

/-- The fault of one branch, if it has any. -/
def targetError? (b : Body) (index : Nat) (i : Instruction) : Option TargetError :=
  if i.op.isBranch then
    match i.target? with
    | none => some (.missing index i.op)
    | some target => if (b.resolve? target).isSome then none else some (.outside index i.op)
  else none

/-- The fault of the first branch that does not lead to an instruction of the body. -/
def badTarget? (b : Body) : Option TargetError :=
  b.code.toList.zipIdx.findSome? fun (i, index) => b.targetError? index i

/-- Instructions that stand for the same in two bodies: branches by position, and others, provided
that they print, by how they do.
-/
def sameInstruction (a b : Body) (x y : Instruction) : Bool :=
  x.op == y.op &&
    if x.op.isBranch then a.branch? x == b.branch? y
    else x.operand.toText a.mnemonic == y.operand.toText b.mnemonic

/-- Whether two bodies have the same locals and stand for the same instructions. -/
def same (a b : Body) : Bool :=
  a.locals == b.locals && a.size == b.size &&
    (a.code.toList.zip b.code.toList).all fun (x, y) => sameInstruction a b x y

/-- The body without its last `n` instructions; branches to those now lead outside. -/
def dropLast (b : Body) (n : Nat) : Body :=
  let kept := b.code.extract 0 (b.size - n)
  let retarget (i : Instruction) : Instruction :=
    match i.operand with
    | .target (.position index) =>
        match kept[index]?, b.code[index]? with
        | none, some gone => { i with operand := .target (.outside gone.op) }
        | _, _ => i
    | _ => i
  { b with code := kept.map retarget }

/-- The body with further instructions behind its last. -/
def append (b : Body) (more : List Instruction) : Body :=
  { b with code := b.code ++ more }

end Body
end TapeIL
