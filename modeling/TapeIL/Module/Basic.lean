import TapeIL.IL.Body
import TapeIL.Options

/-!
Modules: types with their methods, and the method that runs first.
-/

namespace TapeIL

structure MethodDef where
  name : Bytes
  isStatic : Bool := false
  body : Body := {}
deriving DecidableEq, Repr, Inhabited

namespace MethodDef

/-- The name of instance constructors. -/
def ctorName : Bytes :=
  text ".ctor"

/-- The name of the method that compiled programs start with. -/
def entryName : Bytes :=
  text "<Main>$"

/-- A constructor that calls the one of objects and returns. -/
def ctor : MethodDef :=
  { name := ctorName
    body := { code := #[⟨.ldarg0, .none⟩, ⟨.call, .method .objectCtor⟩, ⟨.nop, .none⟩,
      ⟨.ret, .none⟩] } }

end MethodDef

structure TypeDef where
  ns : Bytes
  name : Bytes
  /-- The type that this one extends. -/
  base : TypeRef
  methods : List MethodDef := []
deriving DecidableEq, Repr, Inhabited

namespace TypeDef

/-- The name of the type that holds a compiled program. -/
def programName : Bytes :=
  text "Program"

def fullName (t : TypeDef) : Bytes :=
  TypeRef.fullName ⟨t.ns, t.name⟩

/-- The full name of a method of the type. -/
def methodName (t : TypeDef) (m : MethodDef) : Bytes :=
  t.fullName ++ text "::" ++ m.name

end TypeDef

/-- The method that runs first. -/
inductive Module.Entry where
  | none
  /-- A method by the positions of its type and of itself in that type. -/
  | method (type index : Nat)
  /-- A method whose type is no longer part of the module. -/
  | detached (fullName : Bytes) (method : MethodDef)
deriving DecidableEq, Repr, Inhabited

/-- The sixteen bytes that identify a module. -/
abbrev ModuleId := Vector UInt8 16

/-- The first sixteen bytes of a text that has them; missing ones are zero. -/
def ModuleId.ofBytes (bs : Bytes) : ModuleId :=
  Vector.ofFn fun i => bs[i.val]?.getD 0

structure Module where
  name : Bytes
  version : Version
  id : ModuleId
  types : List TypeDef
  entry : Module.Entry := .none
deriving DecidableEq, Repr, Inhabited

namespace Module

/-- All methods in order, with their full names. -/
def methods (m : Module) : List (Bytes × MethodDef) :=
  m.types.flatMap fun t => t.methods.map fun method => (t.methodName method, method)

/-- The entry method with its full name. -/
def entryMethod? (m : Module) : Option (Bytes × MethodDef) :=
  match m.entry with
  | .none => none
  | .method type index => do
      let t ← m.types[type]?
      let method ← t.methods[index]?
      return (t.methodName method, method)
  | .detached fullName method => some (fullName, method)

/-- The number of a method among all methods of the types, counted from one. -/
def rowOf (types : List TypeDef) (type index : Nat) : Nat :=
  (types.take type).foldr (fun t count => t.methods.length + count) 0 + index + 1

/-- The row of the entry method, or zero if it is in no type. -/
def entryRow (m : Module) : Nat :=
  match m.entry with
  | .method type index =>
      if (m.entryMethod?).isSome then rowOf m.types type index else 0
  | _ => 0

/-- The positions of the method in a row, counted from zero, and of its type. -/
def locate? : (types : List TypeDef) → (row : Nat) → Option (Nat × Nat)
  | [], _ => none
  | t :: rest, row =>
      if row < t.methods.length then some (0, row)
      else (locate? rest (row - t.methods.length)).map fun (type, index) => (type + 1, index)

/-- The module with further types behind its last. -/
def appendTypes (m : Module) (more : List TypeDef) : Module :=
  { m with types := m.types ++ more }

/-- The module with further methods in one of its types. -/
def appendMethods (m : Module) (type : Nat) (more : List MethodDef) : Module :=
  { m with types := m.types.modify type fun t => { t with methods := t.methods ++ more } }

/-- The module without one of its types. The entry method stays the same one. -/
def dropType (m : Module) (type : Nat) : Module :=
  let entry :=
    match m.entry, m.entryMethod? with
    | .method home index, some (fullName, method) =>
        if home = type then Entry.detached fullName method
        else if type < home then .method (home - 1) index
        else .method home index
    | entry, _ => entry
  { m with types := m.types.eraseIdx type, entry }

end Module
end TapeIL
