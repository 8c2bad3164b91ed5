import TapeIL.IL.Body

/-!
Issues that the static checks of a method body report.
-/

namespace TapeIL

/-- Structural issues concern single instructions, stack issues the flow of control. -/
inductive Issue.Category where
  | structural
  | stack
deriving DecidableEq, Repr, Inhabited

def Issue.Category.name : Issue.Category → Bytes
  | .structural => text "STRUCT"
  | .stack => text "STACK"

inductive Issue.Cause where
  | emptyBody
  | unknownOpcode (number : Nat)
  | noTarget
  | targetOutside
  | undeclaredLocal (slot : UInt8) (declared : Nat)
  | fallsThrough
  | underflow (required depth : Nat)
  | leftOver (depth : Nat)
  | inconsistent (first second : Nat)
deriving DecidableEq, Repr, Inhabited

namespace Issue.Cause

def category : Cause → Category
  | .underflow _ _ | .leftOver _ | .inconsistent _ _ => .stack
  | _ => .structural

def message : Cause → Bytes
  | .emptyBody => text "Empty method body"
  | .unknownOpcode number => text "Unknown opcode " ++ Bytes.decimal number
  | .noTarget => text "Branch without target"
  | .targetOutside => text "Branch target outside the method body"
  | .undeclaredLocal slot declared =>
      text "Local " ++ Bytes.decimal slot.toNat ++ text " is not declared ("
        ++ Bytes.decimal declared ++ text " locals)"
  | .fallsThrough => text "Control falls through the end of the method"
  | .underflow required depth =>
      text "Stack underflow: needs " ++ Bytes.decimal required ++ text ", has "
        ++ Bytes.decimal depth
  | .leftOver depth => Bytes.decimal depth ++ text " values left on the stack at ret"
  | .inconsistent first second =>
      text "Inconsistent stack depth: " ++ Bytes.decimal first ++ text " on one path, "
        ++ Bytes.decimal second ++ text " on another"

/-- The numbers of a cause by name. -/
def details : Cause → List (Bytes × Nat)
  | .undeclaredLocal slot declared => [(text "slot", slot.toNat), (text "locals", declared)]
  | .underflow required depth => [(text "required", required), (text "depth", depth)]
  | .leftOver depth => [(text "depth", depth)]
  | .inconsistent first second => [(text "first", first), (text "second", second)]
  | _ => []

end Issue.Cause

/-- The instruction that an issue is about. -/
structure Issue.Place where
  index : Nat
  offset : Nat
  op : OpCode
deriving DecidableEq, Repr, Inhabited

structure Issue where
  cause : Issue.Cause
  place : Option Issue.Place
deriving DecidableEq, Repr, Inhabited

namespace Issue

def category (i : Issue) : Category :=
  i.cause.category

def message (i : Issue) : Bytes :=
  i.cause.message

def toText (i : Issue) : Bytes :=
  text "[" ++ i.category.name ++ text "] "
    ++ (match i.place with
      | some p => Body.offsetLabel p.offset ++ text " " ++ p.op.name ++ text ": "
      | none => [])
    ++ i.message

end Issue
end TapeIL
