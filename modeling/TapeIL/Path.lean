import TapeIL.Bytes

/-!
File paths with `/` between their parts: last part, extension, and names made from other names.
-/

namespace TapeIL.Path

def slash : UInt8 :=
  Bytes.code '/'

/-- The part after the last slash. -/
def lastPart (path : Bytes) : Bytes :=
  match path.cutLast? slash with
  | some (_, last) => last
  | none => path

/-- The last dot of the last part and what follows it, or nothing. -/
def extension (path : Bytes) : Bytes :=
  match (lastPart path).cutLast? (Bytes.code '.') with
  | some (_, last) => Bytes.code '.' :: last
  | none => []

def withoutExtension (path : Bytes) : Bytes :=
  path.take (path.length - (extension path).length)

def replaceExtension (path replacement : Bytes) : Bytes :=
  withoutExtension path ++ replacement

/-- The last part that is not empty; `.` for the empty path and `/` for slashes alone. -/
def base (path : Bytes) : Bytes :=
  if path.isEmpty then text "."
  else
    let trimmed := (path.reverse.dropWhile (· == slash)).reverse
    if trimmed.isEmpty then text "/" else lastPart trimmed

/-- The file name without directory and extension. -/
def stem (path : Bytes) : Bytes :=
  withoutExtension (base path)

/-- The side file that belongs to a module file. -/
def runtimeConfig (output : Bytes) : Bytes :=
  withoutExtension output ++ text ".runtimeconfig.json"

end TapeIL.Path
