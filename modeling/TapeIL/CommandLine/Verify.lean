import TapeIL.CommandLine.Action
import TapeIL.Report

/-!
The command that checks a program and executes it on given input.
-/

namespace TapeIL.CommandLine

structure VerifySettings where
  input : Bytes := []
  limit : Int := 10000000
  report : Bytes := []
deriving DecidableEq, Repr, Inhabited

def VerifySettings.form : Form VerifySettings where
  name := text "verify"
  arguments := text "<input.dll|input.bf|input.il.yaml> [flags]"
  flags := [
    { name := text "input"
      setter := .words fun bs s => { s with input := bs }
      placeholder := text "text"
      help := text "text fed to the program's key reads" },
    { name := text "max-steps"
      setter := .number fun n s => { s with limit := n }
      placeholder := text "n"
      help := text "stop after n instructions"
      shownDefault? := some (text "10000000") },
    { name := text "report"
      setter := .words fun bs s => { s with report := bs }
      placeholder := text "path"
      help := text "also save the report to path" }]

namespace Action

/-- Verifies a program with at most `fuel` ticks of a machine. -/
def verify (fuel : Nat) (arguments : List Bytes) : Action Unit := do
  let (s, input) ← VerifySettings.form.parse {} arguments
  checkInput input
  let body ← loadProgram input false
  let r := Report.generate fuel body s.input s.limit
  print r.toText
  if !s.report.isEmpty then write s.report r.toText .reportFile
  if !r.passed then throw (.unverified r.issues.length r.errorText)

end Action
end TapeIL.CommandLine
