import TapeIL.Text.Blank
import TapeIL.Text.Quoted

/-!
References to types and methods of the target runtime, with their printed forms and the readers of
those forms.
-/

namespace TapeIL

/-- A type by its namespace and name. Both empty stand for a reference that is not set. -/
structure TypeRef where
  ns : Bytes
  name : Bytes
deriving DecidableEq, Repr, Inhabited, Hashable

/-- Why the text of a reference cannot be read. -/
inductive RefError where
  | emptyType
  | invalidType (name : Bytes)
  | noReturnType (signature : Bytes)
  | noDeclaringType (signature : Bytes)
  | noParameters (signature : Bytes)
deriving DecidableEq, Repr, Inhabited

def RefError.message : RefError → Bytes
  | .emptyType => text "empty type name"
  | .invalidType name => text "invalid type name " ++ name.quoted
  | .noReturnType signature => text "invalid method signature " ++ signature.quoted
  | .noDeclaringType signature => text "missing declaring type in " ++ signature.quoted
  | .noParameters signature => text "invalid parameter list in " ++ signature.quoted

namespace TypeRef

def system (name : String) : TypeRef :=
  ⟨text "System", text name⟩

def unset : TypeRef :=
  ⟨[], []⟩

def void : TypeRef := system "Void"
def object : TypeRef := system "Object"
def boolean : TypeRef := system "Boolean"
def byte : TypeRef := system "Byte"
def char : TypeRef := system "Char"
def int32 : TypeRef := system "Int32"
def byteArray : TypeRef := system "Byte[]"
def console : TypeRef := system "Console"
def keyInfo : TypeRef := system "ConsoleKeyInfo"

def isUnset (t : TypeRef) : Bool :=
  t.ns.isEmpty && t.name.isEmpty

/-- Namespace and name with a dot between them. -/
def fullName (t : TypeRef) : Bytes :=
  if t.ns.isEmpty then t.name else t.ns ++ text "." ++ t.name

/-- Reads a full name, cutting it at its last dot. -/
def parse (source : Bytes) : Except RefError TypeRef :=
  let name := source.trim
  if name.isEmpty then .error .emptyType
  else
    match name.cutLast? (Bytes.code '.') with
    | none => .ok ⟨[], name⟩
    | some (ns, last) =>
        if ns.isEmpty || last.isEmpty then .error (.invalidType name) else .ok ⟨ns, last⟩

end TypeRef

/-- A method by its signature. An unset return type means that nothing is returned. -/
structure MethodRef where
  hasThis : Bool := false
  ret : TypeRef := .unset
  owner : TypeRef := .unset
  name : Bytes := []
  params : List TypeRef := []
deriving DecidableEq, Repr, Inhabited

namespace MethodRef

/-- The constructor of objects. -/
def objectCtor : MethodRef :=
  { hasThis := true, ret := .void, owner := .object, name := text ".ctor" }

/-- Writes one character to the console. -/
def consoleWrite : MethodRef :=
  { ret := .void, owner := .console, name := text "Write", params := [.char] }

/-- Reads one key press from the console. -/
def consoleReadKey : MethodRef :=
  { ret := .keyInfo, owner := .console, name := text "ReadKey", params := [.boolean] }

/-- The character of a key press. -/
def keyChar : MethodRef :=
  { hasThis := true, ret := .char, owner := .keyInfo, name := text "get_KeyChar" }

/-- How many values a call takes from the stack. -/
def pop (m : MethodRef) : Nat :=
  m.params.length + if m.hasThis then 1 else 0

/-- How many values a call leaves on the stack. -/
def push (m : MethodRef) : Nat :=
  if m.ret.isUnset || m.ret == .void then 0 else 1

/-- The return type, an unset one read as void. -/
def returned (m : MethodRef) : TypeRef :=
  if m.ret.isUnset then .void else m.ret

/-- The signature as text: return type, declaring type, name and parameter types. -/
def signature (m : MethodRef) : Bytes :=
  (if m.hasThis then text "instance " else [])
    ++ m.returned.fullName ++ text " " ++ m.owner.fullName ++ text "::" ++ m.name
    ++ text "(" ++ Bytes.join (text ",") (m.params.map TypeRef.fullName) ++ text ")"

/-- The name and parameter types, given the text after the declaring type. -/
def parseCall? (source : Bytes) : Option (Bytes × Bytes) :=
  match Bytes.cut? (text "(") source with
  | none => none
  | some (name, rest) =>
      if name.isEmpty || rest.getLast? != some (Bytes.code ')') then none
      else some (name, rest.dropLast)

/-- Reads a signature. -/
def parse (source : Bytes) : Except RefError MethodRef := do
  let trimmed := source.trim
  let (hasThis, whole) :=
    match Bytes.after? (text "instance ") trimmed with
    | some rest => (true, rest)
    | none => (false, trimmed)
  let some (retText, rest) := Bytes.cut? (text " ") whole | .error (.noReturnType whole)
  let ret ← TypeRef.parse retText
  let some (ownerText, rest) := Bytes.cut? (text "::") rest | .error (.noDeclaringType whole)
  let owner ← TypeRef.parse ownerText
  let some (name, paramText) := parseCall? rest | .error (.noParameters whole)
  if paramText.isEmpty then
    return { hasThis, ret, owner, name }
  let params ← (paramText.splitOn (Bytes.code ',')).mapM TypeRef.parse
  return { hasThis, ret, owner, name, params }

end MethodRef
end TapeIL
