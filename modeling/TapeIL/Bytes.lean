/-!
Byte strings. Every text this library reads or writes is a list of bytes, so that texts which are
not valid UTF-8 pass through unchanged.
-/

namespace TapeIL

abbrev Bytes := List UInt8

/-- The UTF-8 bytes of a literal. -/
def text (s : String) : Bytes :=
  s.toUTF8.data.toList

namespace Bytes

/-- The ASCII code of a character. -/
def code (c : Char) : UInt8 :=
  c.val.toUInt8

/-- The decimal digits of a number, without leading zeros. -/
def decimal (n : Nat) : Bytes :=
  (Nat.toDigits 10 n).map code

/-- The decimal digits of an integer, with a minus sign when it is negative. -/
def decimalInt (i : Int) : Bytes :=
  match i with
  | .ofNat n => decimal n
  | .negSucc n => code '-' :: decimal (n + 1)

def boolean (b : Bool) : Bytes :=
  if b then text "true" else text "false"

/-- Lower-case hexadecimal digits, padded with zeros to at least `width` of them. -/
def hex (width n : Nat) : Bytes :=
  let digits := (Nat.toDigits 16 n).map code
  List.replicate (width - digits.length) (code '0') ++ digits

/-- Upper-case hexadecimal digits, padded with zeros to at least `width` of them. -/
def hexUpper (width n : Nat) : Bytes :=
  (hex width n).map fun b => if code 'a' ≤ b ∧ b ≤ code 'f' then b - 32 else b

/-- The pieces between the occurrences of one byte; always at least one piece. -/
def splitOn (sep : UInt8) : Bytes → List Bytes
  | [] => [[]]
  | b :: rest =>
      if b = sep then [] :: splitOn sep rest
      else
        match splitOn sep rest with
        | [] => [[b]]
        | piece :: pieces => (b :: piece) :: pieces

/-- The text after `start`, if the given text begins with it. -/
def after? : (start : Bytes) → Bytes → Option Bytes
  | [], rest => some rest
  | _ :: _, [] => none
  | a :: start, b :: rest => if a = b then after? start rest else none

/-- The texts before and after the first occurrence of `sep`. -/
def cut? (sep : Bytes) : Bytes → Option (Bytes × Bytes)
  | [] => if sep.isEmpty then some ([], []) else none
  | b :: rest =>
      match after? sep (b :: rest) with
      | some tail => some ([], tail)
      | none => (cut? sep rest).map fun (head, tail) => (b :: head, tail)

/-- The texts before and after the last occurrence of one byte. -/
def cutLast? (sep : UInt8) : Bytes → Option (Bytes × Bytes)
  | [] => none
  | b :: rest =>
      match cutLast? sep rest with
      | some (head, tail) => some (b :: head, tail)
      | none => if b = sep then some ([], rest) else none

/-- Texts one after another with `sep` between neighbours. -/
def join (sep : Bytes) : List Bytes → Bytes
  | [] => []
  | [piece] => piece
  | piece :: pieces => piece ++ sep ++ join sep pieces

def isDigit (b : UInt8) : Bool :=
  code '0' ≤ b && b ≤ code '9'

/-- The value of a text of decimal digits. -/
def digitsValue (digits : Bytes) : Nat :=
  digits.foldl (fun n b => 10 * n + (b - code '0').toNat) 0

/-- Reads a text of at least one decimal digit and nothing else. -/
def nat? (bs : Bytes) : Option Nat :=
  if bs.isEmpty || bs.any (fun b => !isDigit b) then none else some (digitsValue bs)

/-- Reads decimal digits with an optional sign before them. -/
def int? : Bytes → Option Int
  | [] => none
  | b :: rest =>
      if b = code '-' then (nat? rest).map fun n => -(n : Int)
      else if b = code '+' then (nat? rest).map Int.ofNat
      else (nat? (b :: rest)).map Int.ofNat

/-- A number in `count` bytes, the low byte first; what does not fit is dropped. -/
def littleEndian : (count : Nat) → Nat → Bytes
  | 0, _ => []
  | count + 1, n => n.toUInt8 :: littleEndian count (n / 256)

/-- The number that bytes denote, the low byte first. -/
def ofLittleEndian : Bytes → Nat
  | [] => 0
  | b :: rest => b.toNat + 256 * ofLittleEndian rest

/-- The first `n` bytes, if there are that many. -/
def take? (n : Nat) (bs : Bytes) : Option Bytes :=
  let taken := bs.take n
  if taken.length = n then some taken else none

/-- Changes the letters A to Z to lower case and leaves all other bytes alone. -/
def lowerAscii (bs : Bytes) : Bytes :=
  bs.map fun b => if code 'A' ≤ b ∧ b ≤ code 'Z' then b + 32 else b

/-- Changes the letters a to z to upper case and leaves all other bytes alone. -/
def upperAscii (bs : Bytes) : Bytes :=
  bs.map fun b => if code 'a' ≤ b ∧ b ≤ code 'z' then b - 32 else b

end Bytes
end TapeIL
