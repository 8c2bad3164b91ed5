import TapeIL.Text.Glyph
import TapeIL.Yaml.Scalar

/-!
Writing strings as scalars. A string is written plainly where that reads back as the same string,
between quotes where it does not, and as a literal block where it has several lines.
-/

namespace TapeIL.Yaml

/-- The characters that end a line. -/
def isBreak (c : Char) : Bool :=
  c = '\n' || c = '\r' || c = '\u0085' || c = '\u2028' || c = '\u2029'

/-- The characters that may stand in a scalar as they are. -/
def isWritable (c : Char) : Bool :=
  let n := c.toNat
  n == 0x0A || (0x20 ≤ n && n ≤ 0x7E) || (0xA0 ≤ n && n ≤ 0xD7FF)
    || (0xE000 ≤ n && n ≤ 0xFFFD && n != 0xFEFF)

def isBlankOrTab (c : Char) : Bool :=
  c = ' ' || c = '\t'

/-- How a scalar may be written. -/
structure Allowed where
  plain : Bool
  single : Bool
  block : Bool
deriving DecidableEq, Repr, Inhabited

namespace Allowed

/-- Whether a blank, or the end, follows. -/
def blankNext : List Char → Bool
  | [] => true
  | c :: _ => isBlankOrTab c

/-- Whether the text starts with something that means more than its text. -/
def indicatorStart : List Char → Bool
  | '-' :: '-' :: '-' :: _ | '.' :: '.' :: '.' :: _ => true
  | c :: rest =>
      ['#', ',', '[', ']', '\x7b', '\x7d', '&', '*', '!', '|', '>', '\'', '"', '%', '@',
        Char.ofNat 0x60].contains c
        || (['?', ':', '-'].contains c && blankNext rest)
  | [] => false

/-- Whether something behind the first character means more than its text. -/
def indicatorInside (before : Char) : List Char → Bool
  | [] => false
  | c :: rest =>
      (c == ':' && blankNext rest)
        || (c == '#' && (isBlankOrTab before || isBreak before))
        || indicatorInside c rest

/-- Whether a character of one class stands directly before one of another. -/
def adjacent (first second : Char → Bool) : List Char → Bool
  | a :: b :: rest => (first a && second b) || adjacent first second (b :: rest)
  | _ => false

def ofChars (cs : List Char) : Allowed :=
  let isSpace := fun c => c == ' '
  let starts := fun (p : Char → Bool) => (cs.head?.map p).getD false
  let ends := fun (p : Char → Bool) => (cs.getLast?.map p).getD false
  let special := cs.any fun c => !isWritable c && c != '\t'
  let tab := cs.contains '\t'
  let spaceBreak := adjacent isSpace isBreak cs
  let breakSpace := adjacent isBreak isSpace cs
  let edges := starts isSpace || starts isBreak || ends isSpace || ends isBreak
  let indicators := indicatorStart cs || indicatorInside ((cs.head?).getD ' ') cs.tail
  { plain := !(edges || breakSpace || spaceBreak || tab || special || cs.any isBreak || indicators)
    single := !(breakSpace || spaceBreak || tab || special)
    block := !(ends isSpace || spaceBreak || special) }

end Allowed

/-- The letter that stands for a character behind a backslash. -/
def escapeLetter? (c : Char) : Option Char :=
  match c.toNat with
  | 0x00 => some '0'
  | 0x07 => some 'a'
  | 0x08 => some 'b'
  | 0x09 => some 't'
  | 0x0A => some 'n'
  | 0x0B => some 'v'
  | 0x0C => some 'f'
  | 0x0D => some 'r'
  | 0x1B => some 'e'
  | 0x22 => some '"'
  | 0x5C => some '\\'
  | 0x85 => some 'N'
  | 0x2028 => some 'L'
  | 0x2029 => some 'P'
  | _ => none

def escaped (c : Char) : Bytes :=
  if isWritable c && !isBreak c && c != '"' && c != '\\' then String.utf8EncodeChar c
  else
    match escapeLetter? c with
    | some letter => text "\\" ++ [Bytes.code letter]
    | none =>
        let n := c.toNat
        if n ≤ 0xFF then text "\\x" ++ Bytes.hexUpper 2 n
        else if n ≤ 0xFFFF then text "\\u" ++ Bytes.hexUpper 4 n
        else text "\\U" ++ Bytes.hexUpper 8 n

def doubleQuoted (cs : List Char) : Bytes :=
  text "\"" ++ cs.flatMap escaped ++ text "\""

def spaces (n : Nat) : Bytes :=
  List.replicate n (Bytes.code ' ')

/-- The inside of single quotes. A line behind a break is indented. -/
def singleInside (indent : Nat) (broken : Bool) : List Char → Bytes
  | [] => []
  | c :: rest =>
      if isBreak c then String.utf8EncodeChar c ++ singleInside indent true rest
      else
        (if broken && c != ' ' then spaces indent else [])
          ++ (if c = '\'' then text "''" else String.utf8EncodeChar c)
          ++ singleInside indent (broken && c == ' ') rest

def singleQuoted (indent : Nat) (cs : List Char) : Bytes :=
  text "'" ++ singleInside indent false cs ++ text "'"

/-- What a literal block says about its first and last lines. -/
def blockHints (cs : List Char) : Bytes :=
  let first := match cs with
    | c :: _ => if c = ' ' || isBreak c then text "4" else []
    | [] => []
  let last := match cs.reverse with
    | [] => text "-"
    | c :: rest =>
        if !isBreak c then text "-"
        else
          match rest with
          | [] => text "+"
          | d :: _ => if isBreak d then text "+" else []
  first ++ last

/-- The lines of a literal block. `opened` tells whether the line of its mark has ended. -/
def literalLines (indent : Nat) (opened atStart : Bool) : List Char → Bytes
  | [] => []
  | c :: rest =>
      if isBreak c then String.utf8EncodeChar c ++ literalLines indent true true rest
      else
        (if atStart then (if opened then [] else text "\n") ++ spaces indent else [])
          ++ String.utf8EncodeChar c ++ literalLines indent true false rest

def literal (indent : Nat) (cs : List Char) : Bytes :=
  text "|" ++ blockHints cs ++ literalLines indent false true cs

/-- The digits of the encoding of bytes in base 64. -/
def base64Digits : List Char :=
  "ABCDEFGHIJKLMNOPQRSTUVWXYZabcdefghijklmnopqrstuvwxyz0123456789+/".toList

def base64Digit (n : Nat) : Char :=
  (base64Digits[n]?).getD '='

def base64 : Bytes → List Char
  | [] => []
  | [a] => [base64Digit (a.toNat / 4), base64Digit (a.toNat % 4 * 16), '=', '=']
  | [a, b] =>
      [base64Digit (a.toNat / 4), base64Digit (a.toNat % 4 * 16 + b.toNat / 16),
        base64Digit (b.toNat % 16 * 4), '=']
  | a :: b :: c :: rest =>
      [base64Digit (a.toNat / 4), base64Digit (a.toNat % 4 * 16 + b.toNat / 16),
        base64Digit (b.toNat % 16 * 4 + c.toNat / 64), base64Digit (c.toNat % 64)] ++ base64 rest

/-- Breaks a text into lines of 70 characters, if it is longer than one line. -/
def folded (count : Nat) : List Char → List Char
  | [] => if count = 0 then [] else ['\n']
  | c :: rest => if count = 70 then '\n' :: c :: folded 1 rest else c :: folded (count + 1) rest

/-- A scalar without the line end behind it, whose further lines are indented. -/
def writeChars (indent : Nat) (readsBack : Bool) (cs : List Char) : Bytes :=
  let allowed := Allowed.ofChars cs
  if cs.contains '\n' then if allowed.block then literal indent cs else doubleQuoted cs
  else if !readsBack then doubleQuoted cs
  else if allowed.plain then cs.flatMap String.utf8EncodeChar
  else if allowed.single then singleQuoted indent cs
  else doubleQuoted cs

/-- Whether a text that is written plainly stays a string. -/
def readsBackPlain (s : Bytes) : Bool :=
  Scalar.resolve s == .str s && !Scalar.isBase60 s && !Scalar.isOldBool s

/-- A string as a scalar. One that is not valid UTF-8 is written in base 64. -/
def writeString (indent : Nat) (s : Bytes) : Bytes :=
  if s.isUtf8 then writeChars indent (readsBackPlain s) ((Glyph.ofBytes s).map Glyph.shown)
  else
    let digits := base64 s
    text "!!binary "
      ++ writeChars indent true (if digits.length < 70 then digits else folded 0 digits)

/-- Behind a scalar stands one line end; a literal block may have brought its own. -/
def endLine (written : Bytes) : Bytes :=
  if written.getLast? == some 10 then written else written ++ text "\n"

/-- A field of a mapping whose value is a string. -/
def stringField (indent : Nat) (name : Bytes) (value : Bytes) : Bytes :=
  endLine (name ++ text ": " ++ writeString indent value)

/-- A field of a mapping whose value is a sequence, given the items with their indentation. -/
def sequenceField (name : Bytes) (items : List Bytes) : Bytes :=
  if items.isEmpty then name ++ text ": []\n"
  else name ++ text ":\n" ++ items.flatMap fun item => text "    - " ++ item

end TapeIL.Yaml
