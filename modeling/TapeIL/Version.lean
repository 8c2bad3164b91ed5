import TapeIL.Text.Blank
import TapeIL.Text.Quoted

/-!
Four-part version numbers, written as one to four decimal components with dots between them.
-/

namespace TapeIL

structure Version where
  major : UInt16 := 0
  minor : UInt16 := 0
  build : UInt16 := 0
  revision : UInt16 := 0
deriving DecidableEq, Repr, Inhabited

inductive VersionError where
  | empty
  | tooMany (version : Bytes)
  | badComponent (component version : Bytes)
deriving DecidableEq, Repr, Inhabited

def VersionError.message : VersionError → Bytes
  | .empty => text "empty version"
  | .tooMany version => text "version " ++ version.quoted ++ text " has more than four components"
  | .badComponent component version =>
      text "invalid version component " ++ component.quoted ++ text " in " ++ version.quoted

namespace Version

/-- Reads a component: decimal digits of a value below 65536. -/
def component? (bs : Bytes) : Option UInt16 :=
  match bs.nat? with
  | some n => if n < 65536 then some n.toUInt16 else none
  | none => none

/-- The version with the given leading components, the others being zero. -/
def ofComponents (parts : List UInt16) : Version :=
  { major := parts[0]?.getD 0
    minor := parts[1]?.getD 0
    build := parts[2]?.getD 0
    revision := parts[3]?.getD 0 }

def parse (source : Bytes) : Except VersionError Version :=
  let trimmed := source.trim
  if trimmed.isEmpty then .error .empty
  else
    let parts := trimmed.splitOn (Bytes.code '.')
    if parts.length > 4 then .error (.tooMany trimmed)
    else
      ofComponents <$> parts.mapM fun part =>
        match component? part with
        | some n => .ok n
        | none => .error (.badComponent part trimmed)

def toText (v : Version) : Bytes :=
  Bytes.join (text ".")
    ([v.major, v.minor, v.build, v.revision].map fun part => Bytes.decimal part.toNat)

end Version
end TapeIL
