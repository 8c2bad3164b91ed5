import TapeIL.Bytes

/-!
Integers written in the base that their first characters announce: `0x` for hexadecimal, `0b` for
binary, `0o` or a further `0` for octal, and decimal otherwise.
-/

namespace TapeIL

/-- Why a numeral has no value. -/
inductive NumeralError where
  | malformed
  | outOfRange
deriving DecidableEq, Repr, Inhabited

namespace Numeral

def underscore : UInt8 :=
  Bytes.code '_'

/-- Unsigned numbers stay below this. -/
def limit : Nat := 0x10000000000000000

/-- Signed numbers stay below this, and are not less than it with its sign changed. -/
def signedLimit : Nat := 0x8000000000000000

/-- The value of a digit or letter as a digit of a large enough base. -/
def digit? (b : UInt8) : Option Nat :=
  if Bytes.isDigit b then some (b - 48).toNat
  else if Bytes.code 'a' ≤ b ∧ b ≤ Bytes.code 'z' then some (b - 87).toNat
  else if Bytes.code 'A' ≤ b ∧ b ≤ Bytes.code 'Z' then some (b - 55).toNat
  else none

/-- Adds digits to a value that has to stay below the limit. Underscores may stand among them if
`gaps` allows it. -/
def digits (base : Nat) (gaps : Bool) (value : Nat) : Bytes → Except NumeralError Nat
  | [] => .ok value
  | b :: rest =>
      if gaps && b == underscore then digits base gaps value rest
      else
        match digit? b with
        | none => .error .malformed
        | some d =>
            if base ≤ d then .error .malformed
            else if limit ≤ value * base + d then .error .outOfRange
            else digits base gaps (value * base + d) rest

/-- The base that a numeral announces, and the numeral without the announcement. -/
def announced : Bytes → Nat × Bytes
  | [] => (10, [])
  | zero :: rest =>
      if zero ≠ 48 then (10, zero :: rest)
      else
        match rest with
        | letter :: first :: more =>
            if letter = 98 ∨ letter = 66 then (2, first :: more)
            else if letter = 111 ∨ letter = 79 then (8, first :: more)
            else if letter = 120 ∨ letter = 88 then (16, first :: more)
            else (8, rest)
        | _ => (8, rest)

/-- What was seen last while underscores are checked. -/
inductive Seen where
  | start
  | digit
  | gap
  | other
deriving DecidableEq, Repr, Inhabited

/-- Whether underscores stand only behind digits and before digits. -/
def gapsAllowed (hex : Bool) (seen : Seen) : Bytes → Bool
  | [] => seen != .gap
  | b :: rest =>
      let isDigit := match digit? b with
        | some d => d < 10 || (hex && d < 16)
        | none => false
      if isDigit then gapsAllowed hex .digit rest
      else if b = underscore then seen == .digit && gapsAllowed hex .gap rest
      else seen != .gap && gapsAllowed hex .other rest

/-- Whether the underscores of an unsigned numeral are in places where they may be. -/
def gapsOk (numeral : Bytes) : Bool :=
  match numeral with
  | 48 :: letter :: rest =>
      if letter = 120 ∨ letter = 88 then gapsAllowed true .digit rest
      else if letter = 98 ∨ letter = 66 ∨ letter = 111 ∨ letter = 79 then
        gapsAllowed false .digit rest
      else gapsAllowed false .start numeral
  | _ => gapsAllowed false .start numeral

/-- Reads an unsigned numeral. -/
def unsigned (numeral : Bytes) : Except NumeralError Nat := do
  if numeral.isEmpty then throw .malformed
  let (base, rest) := announced numeral
  let value ← digits base true 0 rest
  if numeral.contains underscore && !gapsOk numeral then throw .malformed
  return value

/-- The sign of a numeral, and the numeral without it. -/
def sign : Bytes → Bool × Bytes
  | [] => (false, [])
  | b :: rest =>
      if b = 45 then (true, rest)
      else if b = 43 then (false, rest)
      else (false, b :: rest)

/-- Gives a value its sign; the result has to fit in 64 bits. -/
def signed (negative : Bool) (value : Nat) : Except NumeralError Int :=
  if negative then if value ≤ signedLimit then .ok (-(value : Int)) else .error .outOfRange
  else if value < signedLimit then .ok value else .error .outOfRange

/-- Reads a numeral with an optional sign. -/
def parse (numeral : Bytes) : Except NumeralError Int := do
  let (negative, rest) := sign numeral
  signed negative (← unsigned rest)

/-- Reads digits of a given base with an optional sign. -/
def parseIn (base : Nat) (numeral : Bytes) : Except NumeralError Int := do
  let (negative, rest) := sign numeral
  if rest.isEmpty then throw .malformed
  signed negative (← digits base false 0 rest)

end Numeral
end TapeIL
