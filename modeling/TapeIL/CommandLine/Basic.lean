import TapeIL.CommandLine.Compile
import TapeIL.CommandLine.Decompile
import TapeIL.CommandLine.Disassemble
import TapeIL.CommandLine.Run
import TapeIL.CommandLine.Verify

/-!
The command line: the first argument names a command, and the others belong to that command.
-/

namespace TapeIL.CommandLine

inductive Exit where
  | success
  | failure
  | usage
deriving DecidableEq, Repr, Inhabited

def Exit.code : Exit → UInt8
  | .success => 0
  | .failure => 1
  | .usage => 2

/-- A command by its name. -/
structure Entry where
  name : Bytes
  summary : Bytes
  action : (arguments : List Bytes) → Action Unit

def entries (fuel : Nat) : List Entry :=
  [{ name := text "compile"
     summary := text "compile a source file into a module"
     action := Action.compile },
    { name := text "decompile"
      summary := text "recover the source of a module or listing"
      action := Action.decompile },
    { name := text "run"
      summary := text "run a module or source file on the console"
      action := Action.run },
    { name := text "disasm"
      summary := text "print the entry point of a module as a YAML listing"
      action := Action.disassemble },
    { name := text "verify"
      summary := text "lint and execute a module or source file"
      action := Action.verify fuel }]

/-- The names of the commands in a column that is ten characters wide, and what they do. -/
def usage (fuel : Nat) : Bytes :=
  text "usage: bfil <command> [arguments]\n\ncommands:\n"
    ++ (entries fuel).flatMap fun e =>
      text "  " ++ e.name ++ List.replicate (10 - e.name.length) (Bytes.code ' ') ++ text " "
        ++ e.summary ++ text "\n"

/-- Runs a command and reports the error that it ends with. -/
def Entry.run (e : Entry) (arguments : List Bytes) : Script Exit := do
  match ← ExceptT.run (e.action arguments) with
  | .ok _ => return .success
  | .error .usage => return .usage
  | .error error =>
      .report (text "bfil " ++ e.name ++ text ": " ++ error.message ++ text "\n") (.done .failure)

/-- Does what arguments ask for. Machines make at most `fuel` ticks. -/
def script (fuel : Nat) : (arguments : List Bytes) → Script Exit
  | [] => .report (usage fuel) (.done .usage)
  | name :: arguments =>
      match (entries fuel).find? fun e => e.name == name with
      | some e => e.run arguments
      | none =>
          .report (text "bfil: unknown command " ++ name.quoted ++ text "\n" ++ usage fuel)
            (.done .usage)

end TapeIL.CommandLine
