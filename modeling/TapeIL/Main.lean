import TapeIL.CommandLine.Basic

/-!
The program: scripts of the command line, performed on the files and streams of the process.
-/

namespace TapeIL.Main

/-- More ticks than a machine will ever make. -/
def fuel : Nat := 0x4000000000000000

/-- The error numbers of the system for causes that have a name here. -/
def errorOfCode (code : UInt32) (details : String) : FileError :=
  match code with
  | 2 => .notFound
  | 20 => .notDirectory
  | 21 => .isDirectory
  | 22 => .invalid
  | 36 => .nameTooLong
  | _ => .system (text details)

def fileError : IO.Error → FileError
  | .noFileOrDirectory _ code details => errorOfCode code details
  | .inappropriateType _ code details => errorOfCode code details
  | .invalidArgument _ code details => errorOfCode code details
  | .permissionDenied .. => .system (text "permission denied")
  | e => .system (text (toString e))

/-- Performs a file operation. A path that is no text cannot be opened. -/
def onPath {α : Type} (call : FileCall) (path : Bytes) (act : String → IO α) :
    IO (Except FileFault α) := do
  match String.fromUTF8? (ByteArray.mk path.toArray) with
  | none => return .error ⟨call, path, .invalid⟩
  | some name =>
      try
        return .ok (← act name)
      catch e => return .error ⟨call, path, fileError e⟩

/-- A directory can be opened, but not read. -/
def stat (path : Bytes) : IO (Except FileFault FileKind) :=
  onPath .stat path fun name => do
    let handle ← IO.FS.Handle.mk name .read
    try
      discard (handle.read 1)
      return .file
    catch _ => return .directory

def read (path : Bytes) : IO (Except FileFault Bytes) := do
  match ← onPath .openFile path fun name => IO.FS.Handle.mk name .read with
  | .error e => return .error e
  | .ok handle =>
      try
        return .ok (← handle.readBinToEnd).data.toList
      catch e => return .error ⟨.read, path, fileError e⟩

def write (path contents : Bytes) : IO (Except FileFault Unit) :=
  onPath .openFile path fun name => IO.FS.writeBinFile name ⟨contents.toArray⟩

def send (stream : IO.FS.Stream) (out : Bytes) : IO Unit := do
  stream.write ⟨out.toArray⟩
  stream.flush

/-- Whether a machine has failed for want of input. -/
def lacksInput (m : Machine) : Bool :=
  match m.status with
  | .failed (.instruction _ _ (.console .endOfInput)) => true
  | _ => false

/--
Runs a machine. A tick that lacks input is made again once there is more, so that input is read
only when the program asks for it.
-/
partial def runMachine (trace ended : Bool) (m : Machine) (t : Terminal) : IO Machine := do
  let (turn, after, next) := m.tick .terminal t
  if lacksInput after && !lacksInput m && !ended then
    let block ← (← IO.getStdin).read Terminal.blockSize.toUSize
    runMachine trace block.isEmpty m { t with source := block.data.toList }
  else
    send (← IO.getStdout) next.output.toList
    if trace then
      send (← IO.getStderr)
        ((Machine.tickRecords World.coreName turn m after).flatMap Log.Record.toText)
    if turn = .step then runMachine trace ended after { next with output := #[] }
    else return after

/-- Performs a script. -/
def perform {α : Type} : Script α → IO α
  | .done result => return result
  | .stat path next => do perform (next (← stat path))
  | .read path next => do perform (next (← read path))
  | .write path contents next => do perform (next (← write path contents))
  | .print out next => do
      send (← IO.getStdout) out
      perform next
  | .report out next => do
      send (← IO.getStderr) out
      perform next
  | .execute e next => do
      let machine ← runMachine e.trace false ((Machine.new e.limit).map e.body) {}
      perform (next machine)

end TapeIL.Main

def main (arguments : List String) : IO UInt32 := do
  let exit ← TapeIL.Main.perform
    (TapeIL.CommandLine.script TapeIL.Main.fuel (arguments.map TapeIL.text))
  return exit.code.toUInt32
