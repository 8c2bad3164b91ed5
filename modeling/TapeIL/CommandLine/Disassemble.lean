import TapeIL.CommandLine.Decompile

/-!
The command that prints the entry method of a module as a listing.
-/

namespace TapeIL.CommandLine

def OutputSettings.disassembleForm : Form OutputSettings where
  name := text "disasm"
  arguments := text "<input.dll> [flags]"
  flags := [outputFlag (text "write the listing to path instead of stdout"), overwriteFlag]

namespace Action

def disassemble (arguments : List Bytes) : Action Unit := do
  let (s, input) ← OutputSettings.disassembleForm.parse {} arguments
  checkInput input
  if !s.output.isEmpty && !s.overwrite then checkOutput s.output .outputExists
  let (name, body) ← loadEntry input
  let listing := (Listing.ofBody name body).toYaml
  if s.output.isEmpty then print listing else write s.output listing .file

end Action
end TapeIL.CommandLine
