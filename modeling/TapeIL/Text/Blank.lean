import TapeIL.Text.Glyph

/-!
White space: the characters with the Unicode property of that name, and the removal of them from
both ends of a text.
-/

namespace TapeIL

/-- Membership of a code in a list of closed intervals. -/
def inIntervals (intervals : List (Nat × Nat)) (n : Nat) : Bool :=
  intervals.any fun (lo, hi) => lo ≤ n && n ≤ hi

namespace Text

def blankIntervals : List (Nat × Nat) :=
  [(0x09, 0x0D), (0x20, 0x20), (0x85, 0x85), (0xA0, 0xA0), (0x1680, 0x1680), (0x2000, 0x200A),
    (0x2028, 0x2029), (0x202F, 0x202F), (0x205F, 0x205F), (0x3000, 0x3000)]

def isBlank (c : Char) : Bool :=
  inIntervals blankIntervals c.toNat

end Text

def Glyph.isBlank : Glyph → Bool
  | .char c => Text.isBlank c
  | .stray _ => false

/-- A text without the white space at its two ends. -/
def Bytes.trim (bs : Bytes) : Bytes :=
  let glyphs := (Glyph.ofBytes bs).dropWhile Glyph.isBlank
  Glyph.toBytes (glyphs.reverse.dropWhile Glyph.isBlank).reverse

end TapeIL
