import TapeIL.CommandLine.Action

/-!
The command that compiles a source into a module, with a configuration for the runtime and a
listing beside it.
-/

namespace TapeIL.CommandLine

/-- The settings of a compilation. Options that are not given come from a profile or are usual. -/
structure CompileSettings where
  output : Bytes := []
  name : Option Bytes := none
  version : Option Bytes := none
  cells : Option Int := none
  intercept : Option Bool := none
  profile : Bytes := []
  overwrite : Bool := false
  runtimeConfig : Bool := true
  listing : Bool := false
deriving DecidableEq, Repr, Inhabited

namespace CompileSettings

def form : Form CompileSettings where
  name := text "compile"
  arguments := text "<input> [flags]"
  flags := [
    { name := text "c"
      setter := .number fun n s => { s with cells := some n }
      placeholder := text "cells"
      help := text "number of tape cells"
      shownDefault? := some (text "30000") },
    { name := text "i"
      setter := .truth fun b s => { s with intercept := some b }
      help := text "hide key presses instead of echoing them"
      shownDefault? := some (text "true") },
    { name := text "l"
      setter := .truth fun b s => { s with listing := b }
      help := text "also write a YAML listing of the entry point" },
    { name := text "n"
      setter := .words fun bs s => { s with name := some bs }
      placeholder := text "name"
      help := text "assembly name (default input file name)" },
    { name := text "o"
      setter := .words fun bs s => { s with output := bs }
      placeholder := text "path"
      help := text "output module path (default <input>.dll)" },
    { name := text "p"
      setter := .words fun bs s => { s with profile := bs }
      placeholder := text "profile"
      help := text "YAML compile profile providing defaults" },
    { name := text "r"
      setter := .truth fun b s => { s with runtimeConfig := b }
      help := text "write the runtime config side file"
      shownDefault? := some (text "true") },
    { name := text "v"
      setter := .words fun bs s => { s with version := some bs }
      placeholder := text "version"
      help := text "assembly version"
      shownDefault? := some (text "1.0.0").quoted },
    { name := text "w"
      setter := .truth fun b s => { s with overwrite := b }
      help := text "overwrite existing output files" }]

/-- Options with the given settings in place of their own. -/
def apply (s : CompileSettings) (o : Options) : Options :=
  { name := s.name.getD o.name
    version := s.version.getD o.version
    cells := s.cells.getD o.cells
    intercept := s.intercept.getD o.intercept }

/-- Where the module is written. -/
def modulePath (s : CompileSettings) (input : Bytes) : Bytes :=
  if s.output.isEmpty then Path.replaceExtension input (text ".dll") else s.output

def configPath (s : CompileSettings) (input : Bytes) : Bytes :=
  Path.runtimeConfig (s.modulePath input)

def listingPath (s : CompileSettings) (input : Bytes) : Bytes :=
  Path.replaceExtension (s.modulePath input) (text ".il.yaml")

end CompileSettings

namespace Action

/-- What the runtime needs to know to load a module. -/
def runtimeConfig : Bytes :=
  text "\x7b\"runtimeOptions\": \x7b\"tfm\": \"net7.0\",\"framework\": \x7b\"name\": "
    ++ text "\"Microsoft.NETCore.App\",\"version\": \"7.0.0\"\x7d\x7d\x7d"

/-- The options of a compilation. -/
def compileOptions (s : CompileSettings) (input : Bytes) : Action Options := do
  let usual : Options := { name := Path.stem input }
  if s.profile.isEmpty then return s.apply usual
  else
    let source ← read s.profile
    let p ← ofExcept .profile (Profile.parse source)
    return s.apply (p.apply usual)

/-- The outputs of a compilation may not exist. -/
def checkOutputs (s : CompileSettings) (input : Bytes) : Action Unit := do
  checkOutput (s.modulePath input) .outputExists
  if s.runtimeConfig then checkOutput (s.configPath input) .runtimeConfigExists
  if s.listing then checkOutput (s.listingPath input) .outputExists

/-- Writes a module. The file is there, and empty, before the module is encoded. -/
def save (path : Bytes) (m : Module) : Action Unit := do
  write path [] .file
  let bytes ← ofExcept .encode m.encode
  write path bytes .file

/-- Logs that an output was written. -/
def wrote (what : Bytes) (path : Bytes) (more : List (Bytes × Log.Value)) : Action Unit :=
  log { level := .info
        message := text "wrote " ++ what
        attributes := (text "path", .words path) :: more }

/-- Writes the module of a body and what belongs to it. -/
def writeOutputs (s : CompileSettings) (input : Bytes) (m : Module) (body : Body)
    : Action Unit := do
  save (s.modulePath input) m
  wrote (text "module") (s.modulePath input)
    [(text "instructions", .number body.size), (text "code_size", .number body.codeSize)]
  if s.runtimeConfig then
    write (s.configPath input) runtimeConfig .file
    wrote (text "runtime config") (s.configPath input) []
  if s.listing then
    match m.entryMethod? with
    | none => throw .noEntry
    | some (name, _) =>
        write (s.listingPath input) (Listing.ofBody name body).toYaml .file
        wrote (text "listing") (s.listingPath input) []

def compile (arguments : List Bytes) : Action Unit := do
  let (s, input) ← CompileSettings.form.parse {} arguments
  checkInput input
  let o ← compileOptions s input
  if !s.overwrite then checkOutputs s input
  let source ← read input
  let body ← ofExcept .compile (compileSource source o)
  let m ← ofExcept .build (Module.build body o)
  writeOutputs s input m body

end Action
end TapeIL.CommandLine
