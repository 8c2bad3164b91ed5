import TapeIL.Text.Printable

/-!
Quoted texts, as messages show them: between double quotes, on one line, with everything that is
not printable written as an escape.
-/

namespace TapeIL

/-- The letter that stands for a control character after a backslash. -/
def Text.controlLetter? (c : Char) : Option Char :=
  match c.toNat with
  | 0x07 => some 'a'
  | 0x08 => some 'b'
  | 0x0C => some 'f'
  | 0x0A => some 'n'
  | 0x0D => some 'r'
  | 0x09 => some 't'
  | 0x0B => some 'v'
  | _ => none

def Glyph.escaped : Glyph → Bytes
  | .stray b => text "\\x" ++ Bytes.hex 2 b.toNat
  | .char c =>
      if c = '"' ∨ c = '\\' then text "\\" ++ Glyph.bytes (.char c)
      else if Text.isPrintable c then Glyph.bytes (.char c)
      else
        match Text.controlLetter? c with
        | some letter => text "\\" ++ [Bytes.code letter]
        | none =>
            if c.toNat < 0x80 then text "\\x" ++ Bytes.hex 2 c.toNat
            else if c.toNat < 0x10000 then text "\\u" ++ Bytes.hex 4 c.toNat
            else text "\\U" ++ Bytes.hex 8 c.toNat

/-- A text between double quotes. -/
def Bytes.quoted (bs : Bytes) : Bytes :=
  text "\"" ++ (Glyph.ofBytes bs).flatMap Glyph.escaped ++ text "\""

end TapeIL
