import TapeIL.Machine.Step

/-!
The stack machine: one mapped body, one instruction a tick. A tick prints the instruction that it
has executed, and crashes on one that does not print; else it reports whether it made progress. A
machine is run by ticking it until it makes none.
-/

namespace TapeIL

inductive Machine.Status where
  /-- No body was mapped yet. -/
  | idle
  | running
  | returned
  | failed (cause : Failure)
deriving DecidableEq, Repr, Inhabited

/-- What a tick comes to. -/
inductive Machine.Turn where
  /-- No instruction was executed. -/
  | rest
  /-- An instruction was executed, whether it faulted or not. -/
  | step
  /-- An instruction was executed that does not print, and the tick ended there. -/
  | crash
deriving DecidableEq, Repr, Inhabited

structure Machine where
  /-- The largest number of instructions to execute, if there is one. -/
  limit : Option Nat := none
  body : Body := {}
  pc : Nat := 0
  stack : List Value := []
  locals : Array Value := #[]
  heap : Heap := #[]
  steps : Nat := 0
  status : Machine.Status := .idle

namespace Machine

variable {σ : Type}

/-- A machine without a body. A limit that is not positive is none. -/
def new (limit : Int) : Machine :=
  { limit := if 0 < limit then some limit.toNat else none }

/-- Maps a body: the stack is empty again and the locals are as their types start. -/
def map (m : Machine) (body : Body) : Machine :=
  { limit := m.limit
    body
    locals := (body.locals.map Value.initial).toArray
    status := .running }

def halted (m : Machine) : Bool :=
  match m.status with
  | .idle | .running => false
  | .returned | .failed _ => true

def error? (m : Machine) : Option Failure :=
  match m.status with
  | .failed cause => some cause
  | _ => none

/-- The tape: the first array that a local refers to. -/
def tape? (m : Machine) : Option Cells :=
  m.locals.toList.findSome? fun v =>
    match v with
    | .array (some ref) => some (m.heap.arrayOf (some ref))
    | _ => none

/-- The first number in a local, which is the tape pointer of compiled code. -/
def pointer (m : Machine) : Int :=
  (m.locals.toList.findSome? fun v =>
    match v with
    | .int value => some value.toInt
    | _ => none).getD 0

def atLimit (m : Machine) : Bool :=
  match m.limit with
  | some limit => limit ≤ m.steps
  | none => false

/-- Executes an instruction and counts it, whether it faults or not. -/
def execute (c : Console σ) (m : Machine) (s : σ) (i : Instruction) : Machine × σ :=
  let frame : Frame σ := { stack := m.stack, locals := m.locals, heap := m.heap, console := s }
  let (result, frame) := ((Exec.instruction c m.body m.pc i).run).run frame
  let after : Machine :=
    { m with
      stack := frame.stack, locals := frame.locals, heap := frame.heap, steps := m.steps + 1 }
  match result with
  | .ok next =>
      ({ after with pc := next.pc, status := if next.returned then .returned else .running },
        frame.console)
  | .error fault => ({ after with status := .failed (.instruction m.pc i.op fault) }, frame.console)

/-- The machine that a crash leaves behind: a fault of its instruction is not recorded. -/
def breakOff (m : Machine) : Machine :=
  match m.status with
  | .failed _ => { m with status := .running }
  | _ => m

/-- One tick, with what it comes to. -/
def tick (c : Console σ) (m : Machine) (s : σ) : Turn × Machine × σ :=
  match m.status with
  | .running =>
      if m.atLimit then (.rest, { m with status := .failed (.stepLimit (m.limit.getD 0)) }, s)
      else
        match m.body.code[m.pc]? with
        | none => (.rest, { m with status := .failed .pastEnd }, s)
        | some i =>
            let (after, s) := m.execute c s i
            if i.prints then (.step, after, s) else (.crash, after.breakOff, s)
  | _ => (.rest, m, s)

/-- Ticks until there is no progress, at most `fuel` times, with what the last tick came to. -/
def drive (c : Console σ) : (fuel : Nat) → Machine → σ → Turn × Machine × σ
  | 0, m, s => (.step, m, s)
  | fuel + 1, m, s =>
      match m.tick c s with
      | (.step, m, s) => drive c fuel m s
      | ended => ended

/-- Ticks until there is no progress, at most `fuel` times. -/
def run (c : Console σ) (fuel : Nat) (m : Machine) (s : σ) : Machine × σ :=
  (m.drive c fuel s).2

end Machine
end TapeIL
