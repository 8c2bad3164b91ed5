import TapeIL.Options
import TapeIL.Tape.Window

/-!
Compilation of tape programs. The brackets are checked first; the code of a checked program is then
laid out in one pass, each window knowing where the window of its partner is.
-/

namespace TapeIL

inductive CompileError where
  | options (cause : OptionsError)
  | unexpectedToken (offset : Int) (token : Token)
  | unmatchedEnd (offset : Int)
  | unmatchedStart (offset : Int)
deriving DecidableEq, Repr, Inhabited

namespace CompileError

def located (offset : Int) (what : Bytes) : Bytes :=
  text "offset " ++ Bytes.decimalInt offset ++ text ": " ++ what

def message : CompileError → Bytes
  | .options cause => cause.message
  | .unexpectedToken offset token => located offset (text "unexpected token " ++ token.name)
  | .unmatchedEnd offset => located offset (text "unmatched ']' encountered")
  | .unmatchedStart offset => located offset (text "unmatched '[' encountered")

end CompileError

namespace Tape

/--
The commands of a token sequence whose brackets match. `opened` holds the offsets of the loops that
are open, the innermost first.
-/
def commands (opened : List Int) : List (Token × Int) → Except CompileError (List Command)
  | [] =>
      match opened with
      | [] => .ok []
      | offset :: _ => .error (.unmatchedStart offset)
  | (token, offset) :: rest =>
      match token.command? with
      | none => .error (.unexpectedToken offset token)
      | some .loopStart => (commands (offset :: opened) rest).map (.loopStart :: ·)
      | some .loopEnd =>
          match opened with
          | [] => .error (.unmatchedEnd offset)
          | _ :: outer => (commands outer rest).map (.loopEnd :: ·)
      | some c => (commands opened rest).map (c :: ·)

/--
The code of commands laid out from instruction `start`, and the windows of the loop ends in it that
match no loop start in it, in order. `opened` holds the windows of the open loops, the innermost
first.
-/
def layout (intercept : Bool) (start : Nat) (opened : List Nat)
    : List Command → List Instruction × List Nat
  | [] => ([], [])
  | c :: rest =>
      match c with
      | .loopStart =>
          let (code, closes) := layout intercept (start + Window.length c) (start :: opened) rest
          (Window.loopStart (closes.headD 0) ++ code, closes.tail)
      | .loopEnd =>
          let (code, closes) := layout intercept (start + Window.length c) opened.tail rest
          (Window.loopEnd (opened.headD 0) ++ code, start :: closes)
      | _ =>
          let (code, closes) := layout intercept (start + Window.length c) opened rest
          (Window.ofCommand intercept 0 c ++ code, closes)

/-- The body of checked commands: the prologue, their windows, and a `ret`. -/
def body (cells : Int32) (intercept : Bool) (cs : List Command) : Body :=
  let prologue := Window.prologue cells
  { locals := Window.locals
    code := (prologue ++ (layout intercept prologue.length [] cs).1
      ++ [Instruction.mk .ret .none]).toArray }

/-- The deepest nesting of loops. `depth` loops are open before the first command. -/
def maxDepth (depth : Nat) : List Command → Nat
  | [] => depth
  | .loopStart :: rest => max depth (maxDepth (depth + 1) rest)
  | .loopEnd :: rest => max depth (maxDepth (depth - 1) rest)
  | _ :: rest => maxDepth depth rest

end Tape

namespace Program

/-- The commands of a program, if its options are valid and its brackets match. -/
def checked (p : Program) (o : Options) : Except CompileError (List Command) := do
  let _ ← o.check.mapError .options
  Tape.commands [] p.located

def compile (p : Program) (o : Options) : Except CompileError Body := do
  let cs ← p.checked o
  return Tape.body (Int32.ofInt o.cells) o.intercept cs

end Program

def compileSource (source : Bytes) (o : Options) : Except CompileError Body :=
  (Program.parse source).compile o

end TapeIL
