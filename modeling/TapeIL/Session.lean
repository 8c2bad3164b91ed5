import TapeIL.Machine.Basic

/-!
Sessions: a machine whose console consumes fed-in bytes and collects what is written.
-/

namespace TapeIL

structure Session where
  /-- The name of the machine. -/
  core : Bytes
  machine : Machine
  /-- Whether a body was mapped since the last run. -/
  mapped : Bool := false
  feed : Feed := {}

inductive SessionError where
  | noProgram
  | failed (cause : Failure)
  /-- The machine was left while it was still running. -/
  | stopped (core : Bytes)
  /-- A tick crashed, and the run with it. -/
  | crashed
  | console (cause : ConsoleError)
deriving DecidableEq, Repr, Inhabited

def SessionError.message : SessionError → Bytes
  | .noProgram => text "no program mapped"
  | .failed cause => cause.message
  | .stopped core => text "core " ++ core ++ text " stopped before the program returned"
  | .crashed => text "runtime error: invalid memory address or nil pointer dereference"
  | .console cause => cause.message

namespace Session

def new (name : Bytes) (limit : Int) : Session :=
  { core := name ++ text ".Core", machine := .new limit }

/-- Queues input bytes. -/
def feedIn (s : Session) (data : Bytes) : Session :=
  { s with feed := { s.feed with input := s.feed.input ++ data } }

/-- Everything written so far. -/
def collect (s : Session) : Bytes :=
  s.feed.output.toList

def map (s : Session) (body : Body) : Session :=
  { s with machine := s.machine.map body, mapped := true }

/-- One tick of the machine, with what it comes to. -/
def tick (s : Session) : Machine.Turn × Session :=
  let (turn, machine, feed) := s.machine.tick Console.session s.feed
  (turn, { s with machine, feed })

/-- Runs the mapped body until it stops. A body runs once for each time it is mapped. -/
def run (fuel : Nat) (s : Session) : Option SessionError × Session :=
  if s.mapped then
    let (turn, machine, feed) := s.machine.drive Console.session fuel s.feed
    let error :=
      if turn = .crash then some .crashed
      else if machine.halted then machine.error?.map .failed
      else some (.stopped s.core)
    (error, { s with machine, feed, mapped := false })
  else (some .noProgram, s)

def write (s : Session) (unit : UInt16) : Session :=
  { s with feed := s.feed.write unit }

def readKey (s : Session) (intercept : Bool) : Except SessionError UInt16 × Session :=
  let (result, feed) := s.feed.readKey intercept
  (result.mapError .console, { s with feed })

end Session
end TapeIL
