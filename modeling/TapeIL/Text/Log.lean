import TapeIL.Text.Quoted

/-!
Log lines: a level, a message, and attributes with their values. A value is quoted where it would
not read as one word.
-/

namespace TapeIL.Log

inductive Level where
  | trace
  | debug
  | info
deriving DecidableEq, Repr, Inhabited

def Level.name : Level → Bytes
  | .trace => text "DEBUG-4"
  | .debug => text "DEBUG"
  | .info => text "INFO"

inductive Value where
  | number (n : Int)
  | truth (b : Bool)
  | words (bs : Bytes)
deriving DecidableEq, Repr, Inhabited

structure Record where
  level : Level
  message : Bytes
  attributes : List (Bytes × Value) := []
deriving DecidableEq, Repr, Inhabited

/-- The characters that cannot stand in a value without quotes. -/
def needsQuotes : Glyph → Bool
  | .stray _ => true
  | .char c =>
      if c.toNat < 0x80 then c.toNat ≤ 0x20 || c == '=' || c == '"'
      else c == '\uFFFD' || Text.isBlank c || !Text.isPrintable c

/-- A word, between quotes if it is empty or holds characters that ask for them. -/
def word (bs : Bytes) : Bytes :=
  if bs.isEmpty || (Glyph.ofBytes bs).any needsQuotes then bs.quoted else bs

def Value.toText : Value → Bytes
  | .number n => Bytes.decimalInt n
  | .truth b => Bytes.boolean b
  | .words bs => word bs

/-- A record as one line. -/
def Record.toText (r : Record) : Bytes :=
  text "level=" ++ r.level.name ++ text " msg=" ++ word r.message
    ++ r.attributes.flatMap (fun (key, value) => text " " ++ key ++ text "=" ++ value.toText)
    ++ text "\n"

end TapeIL.Log
