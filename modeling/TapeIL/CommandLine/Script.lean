import TapeIL.FileSystem
import TapeIL.Machine.Trace

/-!
Scripts: what a command does to the world around it, one operation after another. A script is run
on a value that stands for that world, or on the world itself.
-/

namespace TapeIL

/-- A program that is run on the console. -/
structure Execution where
  body : Body
  limit : Int
  trace : Bool
deriving Repr, Inhabited

inductive Script (α : Type) where
  | done (result : α)
  /-- Asks what stands at a path. -/
  | stat (path : Bytes) (next : Except FileFault FileKind → Script α)
  | read (path : Bytes) (next : Except FileFault Bytes → Script α)
  /-- Makes or replaces a file. -/
  | write (path contents : Bytes) (next : Except FileFault Unit → Script α)
  /-- Writes to standard output. -/
  | print (out : Bytes) (next : Script α)
  /-- Writes to standard error. -/
  | report (out : Bytes) (next : Script α)
  /-- Runs a program on standard input and output. -/
  | execute (execution : Execution) (next : Machine → Script α)

namespace Script

variable {α β : Type}

def bind (s : Script α) (f : α → Script β) : Script β :=
  match s with
  | .done result => f result
  | .stat path next => .stat path fun answer => (next answer).bind f
  | .read path next => .read path fun answer => (next answer).bind f
  | .write path contents next => .write path contents fun answer => (next answer).bind f
  | .print out next => .print out (next.bind f)
  | .report out next => .report out (next.bind f)
  | .execute execution next => .execute execution fun m => (next m).bind f

instance : Monad Script where
  pure := .done
  bind := bind

end Script

/-- The files, the standard input that is left, and what was written so far. -/
structure World where
  files : FileSystem
  stdin : Bytes := []
  stdout : Bytes := []
  stderr : Bytes := []
deriving DecidableEq, Repr, Inhabited

namespace World

/-- The name of the machine that runs programs on the console. -/
def coreName : Bytes :=
  text "Core"

/-- Runs a program with at most `fuel` ticks. Input that was buffered and not read is lost. Programs
are decoded or compiled, so that their instructions print and no tick crashes.
-/
def execute (fuel : Nat) (e : Execution) (w : World) : Machine × World :=
  let machine := (Machine.new e.limit).map e.body
  let terminal : Terminal := { source := w.stdin }
  let (records, machine, terminal) :=
    if e.trace then machine.runTraced .terminal coreName fuel #[] terminal
    else (#[], machine.run .terminal fuel terminal)
  (machine, { w with
    stdin := terminal.source
    stdout := w.stdout ++ terminal.output.toList
    stderr := w.stderr ++ records.toList.flatMap Log.Record.toText })

end World

namespace Script

variable {α : Type}

/-- Runs a script on a world. -/
def run (fuel : Nat) : Script α → World → α × World
  | .done result, w => (result, w)
  | .stat path next, w => (next (w.files.stat path)).run fuel w
  | .read path next, w => (next (w.files.read path)).run fuel w
  | .write path contents next, w =>
      match w.files.write path contents with
      | .ok files => (next (.ok ())).run fuel { w with files }
      | .error e => (next (.error e)).run fuel w
  | .print out next, w => next.run fuel { w with stdout := w.stdout ++ out }
  | .report out next, w => next.run fuel { w with stderr := w.stderr ++ out }
  | .execute execution next, w =>
      let (machine, w) := w.execute fuel execution
      (next machine).run fuel w

end Script
end TapeIL
