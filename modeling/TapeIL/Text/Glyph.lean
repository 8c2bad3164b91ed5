import TapeIL.Bytes

/-!
Characters in a byte string. A text is cut into glyphs: a glyph is a character with its UTF-8
bytes, or a single byte that is not part of any well-formed character.
-/

namespace TapeIL

inductive Glyph where
  | char (c : Char)
  | stray (b : UInt8)
deriving DecidableEq, Repr, Inhabited

namespace Glyph

def bytes : Glyph → Bytes
  | .char c => String.utf8EncodeChar c
  | .stray b => [b]

def isContinuation (b : UInt8) : Bool :=
  b &&& 0xC0 == 0x80

/-- The character with a given code, if that code is a Unicode scalar value of at least `least`. -/
def scalar? (least n : Nat) : Option Char :=
  if least ≤ n ∧ n.isValidChar then some (Char.ofNat n) else none

def tailBits (b : UInt8) : Nat :=
  (b &&& 0x3F).toNat

/--
The character that starts with `lead`, and how many of the bytes after `lead` belong to it. An
encoding that is longer than needed is no character.
-/
def read? (lead : UInt8) (rest : Bytes) : Option (Char × Nat) :=
  if lead < 0x80 then
    (scalar? 0 lead.toNat).map (·, 0)
  else if lead < 0xC0 then
    none
  else if lead < 0xE0 then
    match rest with
    | b :: _ =>
        if isContinuation b then
          (scalar? 0x80 ((lead &&& 0x1F).toNat * 64 + tailBits b)).map (·, 1)
        else none
    | _ => none
  else if lead < 0xF0 then
    match rest with
    | b :: c :: _ =>
        if isContinuation b && isContinuation c then
          (scalar? 0x800 (((lead &&& 0x0F).toNat * 64 + tailBits b) * 64 + tailBits c)).map (·, 2)
        else none
    | _ => none
  else if lead < 0xF8 then
    match rest with
    | b :: c :: d :: _ =>
        if isContinuation b && isContinuation c && isContinuation d then
          (scalar? 0x10000
            ((((lead &&& 0x07).toNat * 64 + tailBits b) * 64 + tailBits c) * 64 + tailBits d)).map
              (·, 3)
        else none
    | _ => none
  else none

/-- The glyphs of a text, in order. -/
def ofBytes : Bytes → List Glyph
  | [] => []
  | lead :: rest =>
      match read? lead rest with
      | some (c, n) => .char c :: ofBytes (rest.drop n)
      | none => .stray lead :: ofBytes rest
termination_by bs => bs.length
decreasing_by
  all_goals simp only [List.length_drop, List.length_cons]; omega

def toBytes (glyphs : List Glyph) : Bytes :=
  glyphs.flatMap bytes

/-- A character, with U+FFFD standing for a stray byte. -/
def shown : Glyph → Char
  | .char c => c
  | .stray _ => '\uFFFD'

end Glyph

/-- Whether all bytes of a text belong to characters. -/
def Bytes.isUtf8 (bs : Bytes) : Bool :=
  (Glyph.ofBytes bs).all fun g => match g with
    | .char _ => true
    | .stray _ => false

end TapeIL
