import Std.Data.TreeMap
import TapeIL.IL.Reference

/-!
Values of the stack machine, and the byte arrays they refer to.
-/

namespace TapeIL

/-- A byte array of fixed length. Only cells that were written are stored, all others are zero. -/
structure Cells where
  length : Nat
  written : Std.TreeMap Nat UInt8 := {}

namespace Cells

def get (c : Cells) (i : Nat) : UInt8 :=
  c.written.getD i 0

def set (c : Cells) (i : Nat) (b : UInt8) : Cells :=
  { c with written := c.written.insert i b }

/-- The cells that are not zero, with their indices in ascending order. -/
def nonzero (c : Cells) : List (Nat × UInt8) :=
  c.written.toList.filter fun (_, b) => b != 0

end Cells

/-- The allocated arrays, by reference number. -/
abbrev Heap := Array Cells

/-- What the machine calls the kind of a value. -/
inductive Value.Kind where
  | int
  | array
  | element
  | localRef
  | key
  | object
deriving DecidableEq, Repr, Inhabited

def Value.Kind.name : Value.Kind → Bytes
  | .int => text "int32"
  | .array => text "uint8[]"
  | .element => text "uint8&"
  | .localRef => text "local&"
  | .key => text "ConsoleKeyInfo"
  | .object => text "object"

/-- A value on the stack or in a local. -/
inductive Value where
  | int (value : Int32)
  /-- A reference to an array, or the one of an array local that was never stored to. -/
  | array (ref : Option Nat)
  /-- The address of an array element. -/
  | element (ref index : Nat)
  /-- The address of a local. -/
  | localRef (slot : UInt8)
  | key (char : UInt16)
deriving DecidableEq, Repr, Inhabited

namespace Value

def kind : Value → Kind
  | .int _ => .int
  | .array _ => .array
  | .element _ _ => .element
  | .localRef _ => .localRef
  | .key _ => .key

/-- What a local of the given type holds at first. -/
def initial (type : TypeRef) : Value :=
  if type = .byteArray then .array none
  else if type = .keyInfo then .key 0
  else .int 0

end Value

namespace Heap

/-- The array behind a reference; nothing behind none, and no cells behind a bad one. -/
def arrayOf (heap : Heap) (ref : Option Nat) : Cells :=
  (ref.bind fun r => heap[r]?).getD ⟨0, {}⟩

def load (heap : Heap) (ref index : Nat) : UInt8 :=
  (heap.arrayOf (some ref)).get index

def store (heap : Heap) (ref index : Nat) (b : UInt8) : Heap :=
  heap.modify ref fun cells => cells.set index b

end Heap

/-- A value as the state display shows it. -/
def Value.toText (heap : Heap) : Value → Bytes
  | .int value => Bytes.decimalInt value.toInt
  | .array ref => text "uint8[" ++ Bytes.decimal (heap.arrayOf ref).length ++ text "]"
  | .element _ index => text "&[" ++ Bytes.decimal index ++ text "]"
  | .localRef slot => text "&V_" ++ Bytes.decimal slot.toNat
  | .key char => text "key(" ++ Bytes.decimal char.toNat ++ text ")"

end TapeIL
