import TapeIL.Version

/-!
The options that control compilation.
-/

namespace TapeIL

structure Options where
  /-- Name of the assembly and namespace of its program type. -/
  name : Bytes
  version : Bytes := text "1.0.0"
  /-- Number of cells on the tape. -/
  cells : Int := 30000
  /-- Hides key presses instead of echoing them. -/
  intercept : Bool := true
deriving DecidableEq, Repr, Inhabited

inductive OptionsError where
  | emptyName
  | cellsNotPositive (cells : Int)
  | cellsTooMany (cells : Int)
  | version (cause : VersionError)
deriving DecidableEq, Repr, Inhabited

def OptionsError.message (e : OptionsError) : Bytes :=
  text "invalid options: " ++
    match e with
    | .emptyName => text "empty assembly name"
    | .cellsNotPositive cells => text "cell count must be positive, got " ++ Bytes.decimalInt cells
    | .cellsTooMany cells =>
        text "cell count " ++ Bytes.decimalInt cells ++ text " does not fit in an int32"
    | .version cause => cause.message

namespace Options

/-- The version of valid options. -/
def check (o : Options) : Except OptionsError Version :=
  if o.name.trim.isEmpty then .error .emptyName
  else if o.cells ≤ 0 then .error (.cellsNotPositive o.cells)
  else if o.cells > 2147483647 then .error (.cellsTooMany o.cells)
  else (Version.parse o.version).mapError .version

/-- Why the options are not valid, if they are not. -/
def error? (o : Options) : Option OptionsError :=
  match o.check with
  | .ok _ => none
  | .error e => some e

end Options
end TapeIL
