import TapeIL.Text.Glyph

/-!
Consoles: the character devices a running program talks to. A console is any state machine that
answers writes and key reads.
-/

namespace TapeIL

inductive ConsoleError where
  | noConsole
  | inputExhausted
  | endOfInput
  | device (what : Bytes)
deriving DecidableEq, Repr, Inhabited

def ConsoleError.message : ConsoleError → Bytes
  | .noConsole => text "no console attached"
  | .inputExhausted => text "input exhausted"
  | .endOfInput => text "EOF"
  | .device what => what

structure Console (σ : Type) where
  /-- Prints one UTF-16 unit. -/
  write : UInt16 → σ → Except ConsoleError Unit × σ
  /-- Reads one key, which is echoed unless it is intercepted. -/
  readKey : (intercept : Bool) → σ → Except ConsoleError UInt16 × σ

/-- One UTF-16 unit as UTF-8. Halves of surrogate pairs become U+FFFD. -/
def Text.ofUnit (unit : UInt16) : Bytes :=
  let n := unit.toNat
  String.utf8EncodeChar (if n.isValidChar then Char.ofNat n else '\uFFFD')

/-- Input that was fed in, and the output collected so far. -/
structure Feed where
  input : Bytes := []
  output : Array UInt8 := #[]
deriving DecidableEq, Repr, Inhabited

namespace Feed

def write (unit : UInt16) (feed : Feed) : Feed :=
  { feed with output := feed.output ++ Text.ofUnit unit }

/-- Takes one byte of the input; an echoed one is written as well. -/
def readKey (intercept : Bool) (feed : Feed) : Except ConsoleError UInt16 × Feed :=
  match feed.input with
  | [] => (.error .inputExhausted, feed)
  | b :: rest =>
      let feed := { feed with input := rest }
      let key := b.toUInt16
      (.ok key, if intercept then feed else feed.write key)

end Feed

/-- A standard input with the part of it that a console has buffered, and the output so far. -/
structure Terminal where
  source : Bytes := []
  buffered : Bytes := []
  output : Array UInt8 := #[]
deriving DecidableEq, Repr, Inhabited

namespace Terminal

/-- How many bytes a console takes from the standard input at once. -/
def blockSize : Nat := 4096

/-- A new console on the same input. What another one has buffered is lost to it. -/
def attach (t : Terminal) : Terminal :=
  { t with buffered := [] }

def write (unit : UInt16) (t : Terminal) : Terminal :=
  { t with output := t.output ++ Text.ofUnit unit }

/-- Fills the buffer if it is empty. -/
def fill (t : Terminal) : Terminal :=
  if t.buffered.isEmpty then
    { t with source := t.source.drop blockSize, buffered := t.source.take blockSize }
  else t

end Terminal

namespace Console

variable {σ : Type}

/-- A missing console. -/
def absent : Console σ where
  write _ s := (.error .noConsole, s)
  readKey _ s := (.error .noConsole, s)

/-- The console of a session. -/
def session : Console Feed where
  write unit feed := (.ok (), feed.write unit)
  readKey := Feed.readKey

/-- Reads one byte of a terminal's input and echoes it through `write`. -/
def readThrough (write : UInt16 → Terminal → Except ConsoleError Unit × Terminal)
    (intercept : Bool) (t : Terminal) : Except ConsoleError UInt16 × Terminal :=
  let t := t.fill
  match t.buffered with
  | [] => (.error .endOfInput, t)
  | b :: rest =>
      let t := { t with buffered := rest }
      let key := b.toUInt16
      if intercept then (.ok key, t)
      else
        match write key t with
        | (.ok _, t) => (.ok key, t)
        | (.error e, t) => (.error e, t)

/-- A console on standard input and output. -/
def terminal : Console Terminal :=
  let write unit (t : Terminal) := (.ok (), t.write unit)
  { write, readKey := readThrough write }

/-- A terminal whose output cannot be written. -/
def broken : Console Terminal :=
  let write _ (t : Terminal) := (.error (.device (text "broken writer")), t)
  { write, readKey := readThrough write }

/-- A console on which nothing works. -/
def failing : Console σ where
  write _ s := (.error (.device (text "write failed")), s)
  readKey _ s := (.error (.device (text "read failed")), s)

/-- A console whose key is always the same, and which drops what is written. -/
def wide (key : UInt16) : Console σ where
  write _ s := (.ok (), s)
  readKey _ s := (.ok key, s)

/-- A call that a console has answered. -/
inductive Call where
  | write (unit : UInt16)
  | readKey (intercept : Bool)
deriving DecidableEq, Repr

/-- The same console, with the calls made so far kept behind its state, the latest last. -/
def recorded (c : Console σ) : Console (σ × List Call) where
  write unit s :=
    let (answer, next) := c.write unit s.1
    (answer, next, s.2 ++ [.write unit])
  readKey intercept s :=
    let (answer, next) := c.readKey intercept s.1
    (answer, next, s.2 ++ [.readKey intercept])

end Console
end TapeIL
