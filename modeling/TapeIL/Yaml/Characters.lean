import TapeIL.Text.Glyph

/-!
The characters of a document. A document is encoded in UTF-8, or in UTF-16 if it starts with a
mark that says so, and it may not hold control characters. All line ends but two become one.
-/

namespace TapeIL.Yaml

/-- The characters that a document may hold. -/
def isAllowed (c : Char) : Bool :=
  let n := c.toNat
  n == 0x09 || n == 0x0A || n == 0x0D || n == 0x85 || (0x20 ≤ n && n ≤ 0x7E)
    || (0xA0 ≤ n && n ≤ 0xFFFD) || 0x10000 ≤ n

/-- The pairs of bytes as 16-bit units, if the number of bytes is even. -/
def units? (bigEndian : Bool) : Bytes → Option (List Nat)
  | [] => some []
  | [_] => none
  | a :: b :: rest =>
      let n := if bigEndian then a.toNat * 256 + b.toNat else b.toNat * 256 + a.toNat
      (units? bigEndian rest).map (n :: ·)

/-- The characters that 16-bit units encode. A unit of a pair may not stand alone. -/
def ofUnits? : List Nat → Option (List Char)
  | [] => some []
  | n :: rest =>
      if n / 0x400 = 0x37 then none
      else if n / 0x400 = 0x36 then
        match rest with
        | m :: rest =>
            if m / 0x400 = 0x37 then
              (ofUnits? rest).map (Char.ofNat (0x10000 + n % 0x400 * 0x400 + m % 0x400) :: ·)
            else none
        | [] => none
      else (ofUnits? rest).map (Char.ofNat n :: ·)

def ofUtf8? (bs : Bytes) : Option (List Char) :=
  (Glyph.ofBytes bs).mapM fun g => match g with
    | .char c => some c
    | .stray _ => none

def decode? (bs : Bytes) : Option (List Char) :=
  match bs with
  | 0xFF :: 0xFE :: rest => (units? false rest).bind ofUnits?
  | 0xFE :: 0xFF :: rest => (units? true rest).bind ofUnits?
  | 0xEF :: 0xBB :: 0xBF :: rest => ofUtf8? rest
  | _ => ofUtf8? bs

/-- Writes all line ends but the line and paragraph separators in the same way. -/
def unifyBreaks : List Char → List Char
  | [] => []
  | '\r' :: '\n' :: rest => '\n' :: unifyBreaks rest
  | c :: rest => (if c = '\r' || c = '\u0085' then '\n' else c) :: unifyBreaks rest

/-- The characters of a document, if it is encoded well and holds no others. -/
def characters? (bs : Bytes) : Option (List Char) :=
  match decode? bs with
  | some cs => if cs.all isAllowed then some (unifyBreaks cs) else none
  | none => none

end TapeIL.Yaml
