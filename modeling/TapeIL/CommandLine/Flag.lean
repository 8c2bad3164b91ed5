import TapeIL.Text.Numeral
import TapeIL.Text.Quoted

/-!
Flags of a command: how they are written, what they set, and how a command describes them.
-/

namespace TapeIL

/-- What a flag does with its value. -/
inductive Flag.Setter (σ : Type) where
  | words (set : Bytes → σ → σ)
  | number (set : Int → σ → σ)
  | truth (set : Bool → σ → σ)

/-- A flag that changes settings of type `σ`. -/
structure Flag (σ : Type) where
  name : Bytes
  setter : Flag.Setter σ
  /-- The name of its value in a description. -/
  placeholder : Bytes := []
  help : Bytes
  /-- The value that a description says it has if it is not given. -/
  shownDefault? : Option Bytes := none

inductive FlagError where
  | help
  | badSyntax (argument : Bytes)
  | undefined (name : Bytes)
  | needsValue (name : Bytes)
  | badTruth (name value : Bytes)
  | badNumber (name value : Bytes) (cause : NumeralError)
deriving DecidableEq, Repr, Inhabited

/-- The message that stands before a description of the flags. -/
def FlagError.message? : FlagError → Option Bytes
  | .help => none
  | .badSyntax argument => some (text "bad flag syntax: " ++ argument)
  | .undefined name => some (text "flag provided but not defined: -" ++ name)
  | .needsValue name => some (text "flag needs an argument: -" ++ name)
  | .badTruth name value =>
      some (text "invalid boolean value " ++ value.quoted ++ text " for -" ++ name
        ++ text ": parse error")
  | .badNumber name value cause =>
      some (text "invalid value " ++ value.quoted ++ text " for flag -" ++ name ++ text ": "
        ++ match cause with
          | .malformed => text "parse error"
          | .outOfRange => text "value out of range")

namespace Flag

variable {σ : Type}

/-- One flag in a description. A short one has its help on the same line. -/
def describe (f : Flag σ) : Bytes :=
  let value := if f.placeholder.isEmpty then [] else text " " ++ f.placeholder
  let head := text "  -" ++ f.name ++ value
  head ++ (if head.length ≤ 4 then text "\t" else text "\n    \t") ++ f.help
    ++ (match f.shownDefault? with
      | some value => text " (default " ++ value ++ text ")"
      | none => [])
    ++ text "\n"

/-- The words for truth values. -/
def truth? (value : Bytes) : Option Bool :=
  if ["1", "t", "T", "TRUE", "true", "True"].any fun w => text w == value then some true
  else if ["0", "f", "F", "FALSE", "false", "False"].any fun w => text w == value then some false
  else none

/-- An argument as a flag: its name and the value behind an equals sign. -/
inductive Written where
  | notFlag
  | terminator
  | flag (name : Bytes) (value? : Option Bytes)
deriving DecidableEq, Repr, Inhabited

/-- The name of a flag and its value; the equals sign cannot come first. -/
def ofNameAndValue (body : Bytes) : Option Written :=
  match body with
  | [] => none
  | first :: _ =>
      if first = Bytes.code '-' ∨ first = Bytes.code '=' then none
      else
        match Bytes.cut? (text "=") body with
        | some (name, value) => some (.flag name (some value))
        | none => some (.flag body none)

/-- How an argument is written: behind one dash or two a flag starts, and two alone end them. -/
def written (argument : Bytes) : Except FlagError Written :=
  match Bytes.after? (text "-") argument with
  | none => .ok .notFlag
  | some [] => .ok .notFlag
  | some rest =>
      if rest = text "-" then .ok .terminator
      else
        let body := (Bytes.after? (text "-") rest).getD rest
        match ofNameAndValue body with
        | some w => .ok w
        | none => .error (.badSyntax argument)

/-- Gives a flag that is no truth value its value. -/
def assign (f : Flag σ) (value : Bytes) (s : σ) : Except FlagError σ :=
  match f.setter with
  | .words set => .ok (set value s)
  | .number set =>
      match Numeral.parse value with
      | .ok n => .ok (set n s)
      | .error e => .error (.badNumber f.name value e)
  | .truth set =>
      match truth? value with
      | some b => .ok (set b s)
      | none => .error (.badTruth f.name value)

def isTruth (f : Flag σ) : Bool :=
  match f.setter with
  | .truth _ => true
  | _ => false

/-- Reads flags up to the first argument that is none, and gives back the arguments behind them. -/
def parse (flags : List (Flag σ)) (s : σ) : List Bytes → Except FlagError (σ × List Bytes)
  | [] => .ok (s, [])
  | argument :: rest =>
      match written argument with
      | .error e => .error e
      | .ok .notFlag => .ok (s, argument :: rest)
      | .ok .terminator => .ok (s, rest)
      | .ok (.flag name value?) =>
          match flags.find? fun f => f.name == name with
          | none =>
              if name = text "help" ∨ name = text "h" then .error .help
              else .error (.undefined name)
          | some f =>
              match value? with
              | some value =>
                  match f.assign value s with
                  | .ok s => parse flags s rest
                  | .error e => .error e
              | none =>
                  if f.isTruth then
                    match f.assign (text "true") s with
                    | .ok s => parse flags s rest
                    | .error e => .error e
                  else
                    match rest with
                    | [] => .error (.needsValue name)
                    | value :: rest =>
                        match f.assign value s with
                        | .ok s => parse flags s rest
                        | .error e => .error e

end Flag
end TapeIL
