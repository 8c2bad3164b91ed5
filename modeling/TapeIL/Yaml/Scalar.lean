import TapeIL.Text.Numeral

/-!
What plain scalars stand for: nothing, truth values, numbers, points in time, or else their text.
-/

namespace TapeIL.Yaml

/-- The kinds of nodes, and tags of other kinds by name. -/
inductive Tag where
  | null
  | bool
  | int
  | float
  | timestamp
  | str
  | binary
  | merge
  | seq
  | map
  | other (name : Bytes)
deriving DecidableEq, Repr, Inhabited

namespace Tag

def name : Tag → Bytes
  | .null => text "!!null"
  | .bool => text "!!bool"
  | .int => text "!!int"
  | .float => text "!!float"
  | .timestamp => text "!!timestamp"
  | .str => text "!!str"
  | .binary => text "!!binary"
  | .merge => text "!!merge"
  | .seq => text "!!seq"
  | .map => text "!!map"
  | .other name => name

def known : List Tag :=
  [.null, .bool, .int, .float, .timestamp, .str, .binary, .merge, .seq, .map]

/-- The name space of the tags that are written with two exclamation marks. -/
def space : Bytes :=
  text "tag:yaml.org,2002:"

/-- The tag with a full name. -/
def ofName (full : Bytes) : Tag :=
  let short := match Bytes.after? space full with
    | some rest => text "!!" ++ rest
    | none => full
  (known.find? fun tag => tag.name == short).getD (.other short)

end Tag

/-- A floating point number, as far as it matters here: its sign and its integer part. -/
inductive Double where
  | nan
  | infinite (negative : Bool)
  | finite (negative : Bool) (whole : Nat)
deriving DecidableEq, Repr, Inhabited

/-- The value of a scalar. -/
inductive Scalar where
  | null
  | bool (value : Bool)
  | int (value : Int)
  | float (value : Double)
  | timestamp
  | str (value : Bytes)
deriving DecidableEq, Repr, Inhabited

def Scalar.tag : Scalar → Tag
  | .null => .null
  | .bool _ => .bool
  | .int _ => .int
  | .float _ => .float
  | .timestamp => .timestamp
  | .str _ => .str

namespace Double

/-- The nearest integer to a quotient, ties going to the even one. -/
def roundQuotient (num den : Nat) : Nat :=
  let q := num / den
  let r := num % den
  if 2 * r < den then q
  else if den < 2 * r then q + 1
  else if q % 2 = 0 then q else q + 1

/--
The integer part of the double nearest to a quotient, or nothing if that is too large for a
double. A double has 53 significant bits.
-/
def wholeOf? (num den : Nat) : Option Nat :=
  let q := num / den
  if q = 0 then
    if 2 * num < den then some 0 else some (roundQuotient (num * Nat.pow 2 53) den / Nat.pow 2 53)
  else
    let bits := Nat.log2 q
    if 1024 < bits then none
    else
      let whole :=
        if bits ≤ 52 then roundQuotient (num * Nat.pow 2 (52 - bits)) den / Nat.pow 2 (52 - bits)
        else roundQuotient num (den * Nat.pow 2 (bits - 52)) * Nat.pow 2 (bits - 52)
      if Nat.pow 2 1024 ≤ whole then none else some whole

/-- The double nearest to `digits` times ten to the power of `exponent`. -/
def ofDecimal? (negative : Bool) (digits : Nat) (exponent : Int) : Option Double :=
  if digits = 0 then some (.finite negative 0)
  else
    let magnitude := exponent + (Nat.toDigits 10 digits).length
    if magnitude > 400 then none
    else if magnitude < -400 then some (.finite negative 0)
    else
      let whole := match exponent with
        | .ofNat e => wholeOf? (digits * Nat.pow 10 e) 1
        | .negSucc e => wholeOf? digits (Nat.pow 10 (e + 1))
      whole.map (.finite negative)

/-- The exponent part of a decimal: empty, or a mark, an optional sign and digits. -/
def exponent? : Bytes → Option Int
  | [] => some 0
  | mark :: rest =>
      if mark = 101 ∨ mark = 69 then
        let (negative, digits) := Numeral.sign rest
        (Bytes.nat? digits).map fun n => if negative then -(n : Int) else n
      else none

/-- Reads digits with an optional point among them, and an optional exponent. -/
def parse? (source : Bytes) : Option Double := do
  let (negative, rest) := Numeral.sign source
  let whole := rest.takeWhile Bytes.isDigit
  let rest := rest.dropWhile Bytes.isDigit
  let (fraction, rest) := match rest with
    | 46 :: more => (more.takeWhile Bytes.isDigit, more.dropWhile Bytes.isDigit)
    | _ => ([], rest)
  if whole.isEmpty && fraction.isEmpty then none
  else
    let exponent ← exponent? rest
    ofDecimal? negative (Bytes.digitsValue (whole ++ fraction)) (exponent - fraction.length)

/-- The integer part as a 64-bit integer. What is too small becomes the smallest of them. -/
def toInt? : Double → Option Int
  | .nan => none
  | .infinite negative => if negative then some (-(Numeral.signedLimit : Int)) else none
  | .finite negative whole =>
      if negative then some (max (-(whole : Int)) (-(Numeral.signedLimit : Int)))
      else if whole < Numeral.signedLimit then some whole
      else if whole = Numeral.signedLimit then some (-(Numeral.signedLimit : Int))
      else none

end Double

namespace Timestamp

/-- Reads one or two digits. -/
def number? : Bytes → Option (Nat × Bytes)
  | a :: b :: rest =>
      if !Bytes.isDigit a then none
      else if Bytes.isDigit b then some (Bytes.digitsValue [a, b], rest)
      else some (Bytes.digitsValue [a], b :: rest)
  | [a] => if Bytes.isDigit a then some (Bytes.digitsValue [a], []) else none
  | [] => none

/-- Reads two digits. -/
def twoDigits? : Bytes → Option (Nat × Bytes)
  | a :: b :: rest =>
      if Bytes.isDigit a && Bytes.isDigit b then some (Bytes.digitsValue [a, b], rest) else none
  | _ => none

def daysIn (year month : Nat) : Nat :=
  if month = 2 then
    if year % 4 = 0 ∧ (year % 100 ≠ 0 ∨ year % 400 = 0) then 29 else 28
  else if [4, 6, 9, 11].contains month then 30
  else 31

/-- Reads year, month and day. -/
def date? (source : Bytes) : Option Bytes := do
  let year := source.takeWhile Bytes.isDigit
  if year.length ≠ 4 then none
  else
    let rest ← Bytes.after? (text "-") (source.drop 4)
    let (month, rest) ← number? rest
    let rest ← Bytes.after? (text "-") rest
    let (day, rest) ← number? rest
    if 1 ≤ month ∧ month ≤ 12 ∧ 1 ≤ day ∧ day ≤ daysIn (Bytes.digitsValue year) month then
      some rest
    else none

/-- Drops a fraction of a second. -/
def dropFraction (source : Bytes) : Bytes :=
  match source with
  | mark :: digit :: rest =>
      if (mark = 46 ∨ mark = 44) ∧ Bytes.isDigit digit then rest.dropWhile Bytes.isDigit else source
  | _ => source

/-- Reads hours, minutes and seconds. -/
def time? (source : Bytes) : Option Bytes := do
  let (hour, rest) ← number? source
  let rest ← Bytes.after? (text ":") rest
  let (minute, rest) ← number? rest
  let rest ← Bytes.after? (text ":") rest
  let (second, rest) ← number? rest
  if hour < 24 ∧ minute < 60 ∧ second < 60 then some (dropFraction rest) else none

/-- Whether the text is a time zone. -/
def isZone : Bytes → Bool
  | [90] => true
  | sign :: rest =>
      (sign == 43 || sign == 45) &&
        match twoDigits? rest with
        | some (hour, 58 :: rest) =>
            match twoDigits? rest with
            | some (minute, []) => hour ≤ 24 && minute ≤ 60
            | _ => false
        | _ => false
  | [] => false

/-- Whether the text is a date, or a date and a time. -/
def isTimestamp (source : Bytes) : Bool :=
  match date? source with
  | none => false
  | some [] => true
  | some (mark :: rest) =>
      if mark = 84 ∨ mark = 116 then ((time? rest).map isZone).getD false
      else if mark = 32 then time? (rest.dropWhile (· == 32)) == some []
      else false

end Timestamp

namespace Scalar

/-- The scalars that stand for something else than their text by their spelling alone. -/
def words : List (List String × Scalar) :=
  [(["true", "True", "TRUE"], .bool true),
    (["false", "False", "FALSE"], .bool false),
    (["", "~", "null", "Null", "NULL"], .null),
    ([".nan", ".NaN", ".NAN"], .float .nan),
    ([".inf", ".Inf", ".INF", "+.inf", "+.Inf", "+.INF"], .float (.infinite false)),
    (["-.inf", "-.Inf", "-.INF"], .float (.infinite true))]

def word? (source : Bytes) : Option Scalar :=
  words.findSome? fun (spellings, value) =>
    if spellings.any fun spelling => text spelling == source then some value else none

/-- An integer of up to 64 bits, with or without a sign. -/
def int? (digits : Bytes) : Option Int :=
  match Numeral.parse digits with
  | .ok n => some n
  | .error _ => (Numeral.unsigned digits).toOption.map Int.ofNat

/-- An integer whose sign stands behind the announcement of its base. -/
def innerSigned? (digits : Bytes) : Option Int :=
  match Bytes.after? (text "0b") digits, Bytes.after? (text "0o") digits with
  | some rest, _ => (Numeral.parseIn 2 rest).toOption
  | _, some rest => (Numeral.parseIn 8 rest).toOption
  | _, _ => none

/-- What a scalar that starts like a number stands for. -/
def numeric (source : Bytes) : Scalar :=
  if Timestamp.isTimestamp source then .timestamp
  else
    let digits := source.filter (· != Numeral.underscore)
    match int? digits with
    | some n => .int n
    | none =>
        match Double.parse? digits with
        | some d => .float d
        | none =>
            match innerSigned? digits with
            | some n => .int n
            | none => .str source

/-- A number that starts with its point. Underscores may stand between digits. -/
def fraction? (source : Bytes) : Option Double :=
  if Numeral.gapsOk source then Double.parse? (source.filter (· != Numeral.underscore)) else none

/-- What a plain scalar stands for. -/
def resolve (source : Bytes) : Scalar :=
  match word? source with
  | some value => value
  | none =>
      match source with
      | [] => .null
      | first :: _ =>
          if Bytes.isDigit first || first == 43 || first == 45 then numeric source
          else if first == 46 then ((fraction? source).map .float).getD (.str source)
          else .str source

/-- The words that were once truth values. -/
def oldTruths : List String :=
  ["y", "Y", "yes", "on"]

def oldFalsehoods : List String :=
  ["n", "N", "no", "off"]

def isOldBool (source : Bytes) : Bool :=
  (oldTruths ++ oldFalsehoods
    ++ ["Yes", "YES", "On", "ON", "No", "NO", "Off", "OFF"]).any fun w => text w == source

/-- The parts of a number in base sixty behind its first: a colon and one or two digits each. -/
def isBase60Tail (part : Bytes) : Bool :=
  match part with
  | [a] => Bytes.isDigit a
  | [a, b] => Bytes.isDigit a && a < 54 && Bytes.isDigit b
  | _ => false

/-- Whether the text was once a number in base sixty. -/
def isBase60 (source : Bytes) : Bool :=
  let (_, rest) := Numeral.sign source
  let (digits, fraction) := match Bytes.cut? (text ".") rest with
    | some (digits, fraction) => (digits, fraction)
    | none => (rest, [])
  let isDigitOrGap := fun b => Bytes.isDigit b || b == Numeral.underscore
  match digits.splitOn 58 with
  | first :: tail =>
      !tail.isEmpty && tail.all isBase60Tail && fraction.all isDigitOrGap
        && first.all isDigitOrGap && ((first.head?).map Bytes.isDigit).getD false
  | [] => false

end Scalar
end TapeIL.Yaml
