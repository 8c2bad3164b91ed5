import TapeIL.CommandLine.Action
import TapeIL.Machine.Display

/-!
The command that runs a program on the console.
-/

namespace TapeIL.CommandLine

structure RunSettings where
  /-- The largest number of instructions to execute; no limit if it is not positive. -/
  limit : Int := 0
  trace : Bool := false
deriving DecidableEq, Repr, Inhabited

def RunSettings.form : Form RunSettings where
  name := text "run"
  arguments := text "<input.dll|input.bf> [flags]"
  flags := [
    { name := text "max-steps"
      setter := .number fun n s => { s with limit := n }
      placeholder := text "n"
      help := text "stop after n instructions (0 means no limit)" },
    { name := text "trace"
      setter := .truth fun b s => { s with trace := b }
      help := text "log every executed instruction and print the final state" }]

namespace Action

def run (arguments : List Bytes) : Action Unit := do
  let (s, input) ← RunSettings.form.parse {} arguments
  checkInput input
  let body ← loadProgram input s.trace
  let machine ← execute { body, limit := s.limit, trace := s.trace }
  if s.trace then report (machine.display World.coreName)
  match machine.error? with
  | some e => throw (.failed e)
  | none => return ()

end Action
end TapeIL.CommandLine
