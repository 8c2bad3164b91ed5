import TapeIL.Digest.Blake2b
import TapeIL.Module.Encode

/-!
Modules around a compiled body. A module is identified by a digest of its name and of the names
and byte code of its methods.
-/

namespace TapeIL

inductive BuildError where
  | options (cause : OptionsError)
  | branch (cause : TargetError)
deriving DecidableEq, Repr, Inhabited

def BuildError.message : BuildError → Bytes
  | .options cause => cause.message
  | .branch cause => malformed cause.message

namespace Module

/-- What the identity of a module depends on. -/
def identified (m : Module) : Bytes :=
  let r := References.ofModule m
  m.name ++ m.methods.flatMap fun (name, method) => name ++ Encode.code r method.body

/-- A module whose only type holds a constructor and the entry method. -/
def ofEntry (name : Bytes) (version : Version) (body : Body) : Module :=
  let program : TypeDef :=
    { ns := name
      name := TypeDef.programName
      base := .object
      methods := [.ctor, { name := MethodDef.entryName, isStatic := true, body }] }
  { name, version, id := .ofBytes [], types := [program], entry := .method 0 1 }

def build (body : Body) (o : Options) : Except BuildError Module := do
  let version ← o.check.mapError .options
  if let some e := body.badTarget? then throw (.branch e)
  let m := ofEntry o.name version body
  return { m with id := .ofBytes (Blake2b.hash m.identified) }

end Module
end TapeIL
