import TapeIL.Bytes

/-!
Tape programs: the eight commands, tokens, and programs as token sequences with source offsets.
Reading never fails, because every byte that is not a command is a comment.
-/

namespace TapeIL

inductive Command where
  | moveRight
  | moveLeft
  | increment
  | decrement
  | output
  | input
  | loopStart
  | loopEnd
deriving DecidableEq, Repr, Inhabited

namespace Command

def all : List Command :=
  [.moveRight, .moveLeft, .increment, .decrement, .output, .input, .loopStart, .loopEnd]

def char : Command → Char
  | .moveRight => '>'
  | .moveLeft => '<'
  | .increment => '+'
  | .decrement => '-'
  | .output => '.'
  | .input => ','
  | .loopStart => '['
  | .loopEnd => ']'

def byte (c : Command) : UInt8 :=
  Bytes.code c.char

def name : Command → Bytes
  | .moveRight => text "MoveRight"
  | .moveLeft => text "MoveLeft"
  | .increment => text "Increment"
  | .decrement => text "Decrement"
  | .output => text "Output"
  | .input => text "Input"
  | .loopStart => text "LoopStart"
  | .loopEnd => text "LoopEnd"

/-- The number of a command among the tokens; zero is no command. -/
def number : Command → UInt8
  | .moveRight => 1
  | .moveLeft => 2
  | .increment => 3
  | .decrement => 4
  | .output => 5
  | .input => 6
  | .loopStart => 7
  | .loopEnd => 8

/-- The command written as a byte. -/
def ofByte? (b : UInt8) : Option Command :=
  all.find? fun c => c.byte == b

end Command

/-- A numbered token. The numbers one to eight are the commands, all others mean nothing. -/
structure Token where
  number : UInt8
deriving DecidableEq, Repr, Inhabited

namespace Token

def ofCommand (c : Command) : Token :=
  ⟨c.number⟩

def command? (t : Token) : Option Command :=
  Command.all.find? fun c => c.number == t.number

/-- The source byte of a token, or zero for one that is no command. -/
def byte (t : Token) : UInt8 :=
  match t.command? with
  | some c => c.byte
  | none => 0

/-- How a token that is no command is shown. -/
def numbered (t : Token) : Bytes :=
  text "token(" ++ Bytes.decimal t.number.toNat ++ text ")"

def toText (t : Token) : Bytes :=
  match t.command? with
  | some c => [c.byte]
  | none => t.numbered

def name (t : Token) : Bytes :=
  match t.command? with
  | some c => c.name
  | none => t.numbered

end Token

/-- A token sequence. Where `offsets` ends early, a token's own position is its offset. -/
structure Program where
  tokens : List Token
  offsets : List Int := []
deriving DecidableEq, Repr, Inhabited

namespace Program

/-- The commands of a source text with their positions, the first byte being at `start`. -/
def scan (start : Nat) : Bytes → List (Command × Nat)
  | [] => []
  | b :: rest =>
      match Command.ofByte? b with
      | some c => (c, start) :: scan (start + 1) rest
      | none => scan (start + 1) rest

def parse (source : Bytes) : Program :=
  let found := scan 0 source
  { tokens := found.map fun (c, _) => .ofCommand c
    offsets := found.map fun (_, at_) => (at_ : Int) }

def offset (p : Program) (i : Nat) : Int :=
  p.offsets[i]?.getD i

/-- Tokens paired with their offsets, the first token having index `i`. -/
def locate : (i : Nat) → List Token → List Int → List (Token × Int)
  | _, [], _ => []
  | i, t :: ts, [] => (t, i) :: locate (i + 1) ts []
  | i, t :: ts, o :: os => (t, o) :: locate (i + 1) ts os

def located (p : Program) : List (Token × Int) :=
  locate 0 p.tokens p.offsets

def toText (p : Program) : Bytes :=
  p.tokens.map Token.byte

/-- Two programs are the same when their tokens are; offsets do not count. -/
def same (p q : Program) : Bool :=
  p.tokens == q.tokens

end Program
end TapeIL
