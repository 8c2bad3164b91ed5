import TapeIL.CommandLine.Compile

/-!
The command that recovers the source of a module or a listing.
-/

namespace TapeIL.CommandLine

/-- The settings of a command with one output. -/
structure OutputSettings where
  output : Bytes := []
  overwrite : Bool := false
deriving DecidableEq, Repr, Inhabited

namespace OutputSettings

/-- The flag that names the output. -/
def outputFlag (help : Bytes) : Flag OutputSettings where
  name := text "o"
  setter := .words fun bs s => { s with output := bs }
  placeholder := text "path"
  help := help

def overwriteFlag : Flag OutputSettings where
  name := text "w"
  setter := .truth fun b s => { s with overwrite := b }
  help := text "overwrite an existing output file"

def decompileForm : Form OutputSettings where
  name := text "decompile"
  arguments := text "<input.dll|input.il.yaml> [flags]"
  flags := [outputFlag (text "output source path (default <input>.bf)"), overwriteFlag]

end OutputSettings

namespace Action

def decompile (arguments : List Bytes) : Action Unit := do
  let (s, input) ← OutputSettings.decompileForm.parse {} arguments
  checkInput input
  let output := if s.output.isEmpty then Path.replaceExtension input (text ".bf") else s.output
  if !s.overwrite then checkOutput output .outputExists
  let body ← loadBody input
  let d ← ofExcept .decompile body.decompile
  write output d.program.toText .file
  wrote (text "source") output
    [(text "tokens", .number d.program.tokens.length), (text "cell_count", .number d.cells),
      (text "intercept_input", .truth d.intercept)]

end Action
end TapeIL.CommandLine
