import TapeIL.Text.Glyph

/-!
The instruction set: opcodes with their mnemonics, byte codes, operand kinds and stack effects.
-/

namespace TapeIL

/-- What follows an opcode in the byte code. -/
inductive OperandKind where
  | none
  | int
  | slot
  | target
  | type
  | method
deriving DecidableEq, Repr, Inhabited

namespace OperandKind

/-- The number of bytes an operand takes. -/
def size : OperandKind → Nat
  | .none => 0
  | .slot => 1
  | .int | .target | .type | .method => 4

def number : OperandKind → Nat
  | .none => 0
  | .int => 1
  | .slot => 2
  | .target => 3
  | .type => 4
  | .method => 5

end OperandKind

/-- The 27 opcodes of the set, and the 229 numbers of a byte that are none of them. -/
inductive OpCode where
  | nop
  | ldarg0
  | ldloc0
  | ldloc1
  | ldloc2
  | stloc0
  | stloc1
  | stloc2
  | ldlocaS
  | ldcI4Zero
  | ldcI4One
  | ldcI4
  | dup
  | call
  | ret
  | br
  | brtrue
  | ldindU1
  | stindI1
  | add
  | sub
  | convU2
  | convU1
  | newarr
  | ldelema
  | ldelemU1
  | stelemI1
  | unknown (excess : Fin 229)
deriving DecidableEq, Repr, Inhabited

/-- The static description of an opcode. A `pop` of `none` is decided by the operand. -/
structure OpInfo where
  name : Bytes
  code : UInt8
  operand : OperandKind := .none
  pop : Option Nat := some 0
  push : Nat := 0
deriving DecidableEq, Repr, Inhabited

namespace OpCode

def setName : Bytes :=
  text "bfil CIL subset"

/-- The opcodes of the set, in the order of their numbers. -/
def all : List OpCode :=
  [.nop, .ldarg0, .ldloc0, .ldloc1, .ldloc2, .stloc0, .stloc1, .stloc2, .ldlocaS, .ldcI4Zero,
    .ldcI4One, .ldcI4, .dup, .call, .ret, .br, .brtrue, .ldindU1, .stindI1, .add, .sub, .convU2,
    .convU1, .newarr, .ldelema, .ldelemU1, .stelemI1]

def number : OpCode → Nat
  | .nop => 0
  | .ldarg0 => 1
  | .ldloc0 => 2
  | .ldloc1 => 3
  | .ldloc2 => 4
  | .stloc0 => 5
  | .stloc1 => 6
  | .stloc2 => 7
  | .ldlocaS => 8
  | .ldcI4Zero => 9
  | .ldcI4One => 10
  | .ldcI4 => 11
  | .dup => 12
  | .call => 13
  | .ret => 14
  | .br => 15
  | .brtrue => 16
  | .ldindU1 => 17
  | .stindI1 => 18
  | .add => 19
  | .sub => 20
  | .convU2 => 21
  | .convU1 => 22
  | .newarr => 23
  | .ldelema => 24
  | .ldelemU1 => 25
  | .stelemI1 => 26
  | .unknown excess => 27 + excess.val

def ofNumber (n : UInt8) : OpCode :=
  if h : n.toNat < 27 then all.get ⟨n.toNat, h⟩
  else .unknown ⟨n.toNat - 27, by have := n.toNat_lt; omega⟩

def info : OpCode → OpInfo
  | .nop => { name := text "nop", code := 0x00 }
  | .ldarg0 => { name := text "ldarg.0", code := 0x02, push := 1 }
  | .ldloc0 => { name := text "ldloc.0", code := 0x06, push := 1 }
  | .ldloc1 => { name := text "ldloc.1", code := 0x07, push := 1 }
  | .ldloc2 => { name := text "ldloc.2", code := 0x08, push := 1 }
  | .stloc0 => { name := text "stloc.0", code := 0x0A, pop := some 1 }
  | .stloc1 => { name := text "stloc.1", code := 0x0B, pop := some 1 }
  | .stloc2 => { name := text "stloc.2", code := 0x0C, pop := some 1 }
  | .ldlocaS => { name := text "ldloca.s", code := 0x12, operand := .slot, push := 1 }
  | .ldcI4Zero => { name := text "ldc.i4.0", code := 0x16, push := 1 }
  | .ldcI4One => { name := text "ldc.i4.1", code := 0x17, push := 1 }
  | .ldcI4 => { name := text "ldc.i4", code := 0x20, operand := .int, push := 1 }
  | .dup => { name := text "dup", code := 0x25, pop := some 1, push := 2 }
  | .call => { name := text "call", code := 0x28, operand := .method, pop := none }
  | .ret => { name := text "ret", code := 0x2A }
  | .br => { name := text "br", code := 0x38, operand := .target }
  | .brtrue => { name := text "brtrue", code := 0x3A, operand := .target, pop := some 1 }
  | .ldindU1 => { name := text "ldind.u1", code := 0x47, pop := some 1, push := 1 }
  | .stindI1 => { name := text "stind.i1", code := 0x52, pop := some 2 }
  | .add => { name := text "add", code := 0x58, pop := some 2, push := 1 }
  | .sub => { name := text "sub", code := 0x59, pop := some 2, push := 1 }
  | .convU2 => { name := text "conv.u2", code := 0xD1, pop := some 1, push := 1 }
  | .convU1 => { name := text "conv.u1", code := 0xD2, pop := some 1, push := 1 }
  | .newarr => { name := text "newarr", code := 0x8D, operand := .type, pop := some 1, push := 1 }
  | .ldelema => { name := text "ldelema", code := 0x8F, operand := .type, pop := some 2, push := 1 }
  | .ldelemU1 => { name := text "ldelem.u1", code := 0x91, pop := some 2, push := 1 }
  | .stelemI1 => { name := text "stelem.i1", code := 0x9C, pop := some 3 }
  | .unknown excess =>
      { name := text "op(" ++ Bytes.decimal (27 + excess.val) ++ text ")", code := 0 }

def name (op : OpCode) : Bytes :=
  op.info.name

def operandKind (op : OpCode) : OperandKind :=
  op.info.operand

def isValid : OpCode → Bool
  | .unknown _ => false
  | _ => true

def isBranch (op : OpCode) : Bool :=
  op.operandKind == .target

/-- The opcode with a given byte code. -/
def ofByte? (b : UInt8) : Option OpCode :=
  all.find? fun op => op.info.code == b

/-- Lower case, for every character whose lower-case form is a basic Latin letter. -/
def lowerLatin (c : Char) : Char :=
  if c = '\u0130' then 'i'
  else if c = '\u212A' then 'k'
  else c.toLower

def lowerGlyph : Glyph → Glyph
  | .char c => .char (lowerLatin c)
  | .stray b => .stray b

/-- The opcode with a given mnemonic, upper and lower case being the same. -/
def ofMnemonic? (mnemonic : Bytes) : Option OpCode :=
  let lowered := Glyph.toBytes ((Glyph.ofBytes mnemonic).map lowerGlyph)
  all.find? fun op => op.name == lowered

end OpCode
end TapeIL
