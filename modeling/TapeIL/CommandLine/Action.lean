import TapeIL.CommandLine.Flag
import TapeIL.CommandLine.Script
import TapeIL.IL.Listing
import TapeIL.Module.Build
import TapeIL.Module.Decode
import TapeIL.Profile
import TapeIL.Tape.Compile
import TapeIL.Tape.Decompile

/-!
What all commands share: the errors that they end with, their arguments, and the files that they
read programs from.
-/

namespace TapeIL.CommandLine

/-- Why a command fails. -/
inductive Error where
  /-- The arguments are wrong, and what is wrong with them was reported. -/
  | usage
  | inputMissing (path : Bytes)
  | outputExists (path : Bytes)
  | runtimeConfigExists (path : Bytes)
  | unsupported (path : Bytes)
  | file (cause : FileFault)
  | reportFile (cause : FileFault)
  | profile (cause : ProfileError)
  | listing (cause : ListingError)
  | compile (cause : CompileError)
  | build (cause : BuildError)
  | encode (cause : EncodeError)
  | decode (cause : DecodeError)
  | noEntry
  | decompile (cause : DecompileError)
  | failed (cause : Failure)
  | unverified (issues : Nat) (execution : Bytes)
deriving DecidableEq, Repr, Inhabited

namespace Error

def useToOverwrite (what path : Bytes) : Bytes :=
  what ++ text " already exists: " ++ path ++ text " (use -w to overwrite)"

def message : Error → Bytes
  | .usage => text "usage error"
  | .inputMissing path => text "input file not found: " ++ path
  | .outputExists path => useToOverwrite (text "output file") path
  | .runtimeConfigExists path => useToOverwrite (text "runtime config file") path
  | .unsupported path => text "unsupported input file: " ++ path
  | .file cause => cause.message
  | .reportFile cause => text "failed to create report file: " ++ cause.message
  | .profile cause => cause.message
  | .listing cause => cause.message
  | .compile cause => cause.message
  | .build cause => cause.message
  | .encode cause => cause.message
  | .decode cause => cause.message
  | .noEntry => text "module has no entry point"
  | .decompile cause => cause.message
  | .failed cause => cause.message
  | .unverified issues execution =>
      text "verification failed: " ++ Bytes.decimal issues ++ text " lint issues, execution error: "
        ++ execution

end Error

/-- A script that may end early. -/
abbrev Action (α : Type) := ExceptT Error Script α

namespace Action

def ofExcept {ε α : Type} (wrap : ε → Error) (result : Except ε α) : Action α :=
  ExceptT.mk (.done (result.mapError wrap))

def stat (path : Bytes) : Action (Except FileFault FileKind) :=
  ExceptT.lift (.stat path .done)

/-- Reads a file. -/
def read (path : Bytes) : Action Bytes :=
  ExceptT.mk (.read path fun answer => .done (answer.mapError .file))

/-- Makes or replaces a file. A failure is wrapped in an error of the command. -/
def write (path contents : Bytes) (wrap : FileFault → Error) : Action Unit :=
  ExceptT.mk (.write path contents fun answer => .done (answer.mapError wrap))

def print (out : Bytes) : Action Unit :=
  ExceptT.lift (.print out (.done ()))

def report (out : Bytes) : Action Unit :=
  ExceptT.lift (.report out (.done ()))

def log (record : Log.Record) : Action Unit :=
  report record.toText

def execute (e : Execution) : Action Machine :=
  ExceptT.lift (.execute e .done)

end Action

/-- The name of a command, the form of its arguments, and its flags. -/
structure Form (σ : Type) where
  name : Bytes
  arguments : Bytes
  flags : List (Flag σ)

namespace Form

variable {σ : Type}

/-- How a command is used. -/
def usage (form : Form σ) : Bytes :=
  text "usage: bfil " ++ form.name ++ text " " ++ form.arguments ++ text "\n"
    ++ form.flags.flatMap Flag.describe

/-- Ends a command whose arguments are wrong. -/
def refuse {α : Type} (form : Form σ) (message? : Option Bytes) : Action α := do
  Action.report ((message?.map (· ++ text "\n")).getD [] ++ form.usage)
  throw .usage

/--
The settings and the one argument that is no flag. Flags may stand before and behind it.
-/
def arguments? (form : Form σ) (start : σ) (arguments : List Bytes) :
    Except (Option Bytes) (σ × Bytes) :=
  match Flag.parse form.flags start arguments with
  | .error e => .error e.message?
  | .ok (_, []) => .error none
  | .ok (s, input :: rest) =>
      match Flag.parse form.flags s rest with
      | .error e => .error e.message?
      | .ok (s, []) => .ok (s, input)
      | .ok (_, _ :: _) => .error none

def parse (form : Form σ) (start : σ) (arguments : List Bytes) : Action (σ × Bytes) :=
  match form.arguments? start arguments with
  | .ok result => pure result
  | .error message? => form.refuse message?

end Form

namespace Action

/-- An input has to be a file. -/
def checkInput (path : Bytes) : Action Unit := do
  match ← stat path with
  | .ok .file => return ()
  | .ok .directory => throw (.inputMissing path)
  | .error fault =>
      if fault.cause = .notFound then throw (.inputMissing path) else throw (.file fault)

/-- Nothing may stand where an output is to be written. -/
def checkOutput (path : Bytes) (taken : Bytes → Error) : Action Unit := do
  match ← stat path with
  | .ok _ => throw (taken path)
  | .error fault => if fault.cause = .notFound then return () else throw (.file fault)

/-- Reads a module and gives its entry method with the full name of that. -/
def loadEntry (path : Bytes) : Action (Bytes × Body) := do
  let bytes ← read path
  let m ← ofExcept .decode (Module.decode bytes)
  match m.entryMethod? with
  | some (name, method) => return (name, method.body)
  | none => throw .noEntry

/-- The extension of a path with its letters in lower case. -/
def fileType (path : Bytes) : Bytes :=
  (Path.extension path).lowerAscii

def isListing (path : Bytes) : Bool :=
  fileType path == text ".yaml" || fileType path == text ".yml"

def isModule (path : Bytes) : Bool :=
  fileType path == text ".dll" || fileType path == text ".exe" || (fileType path).isEmpty

def isSource (path : Bytes) : Bool :=
  fileType path == text ".bf" || fileType path == text ".b"

/-- The body in a module or a listing. -/
def loadBody (path : Bytes) : Action Body := do
  if isListing path then
    let source ← read path
    let (_, body) ← ofExcept .listing (Listing.load source)
    return body
  else if isModule path then
    let (_, body) ← loadEntry path
    return body
  else throw (.unsupported path)

/-- The record of a compilation. -/
def compiledRecord (o : Options) (p : Program) (cs : List Command) (body : Body) : Log.Record :=
  { level := .debug
    message := text "compiled program"
    attributes := [(text "name", .words o.name), (text "tokens", .number p.tokens.length),
      (text "instructions", .number body.size),
      (text "max_loop_depth", .number (Tape.maxDepth 0 cs))] }

/-- The body in a module or a listing, or of a source that is compiled with the usual options. -/
def loadProgram (path : Bytes) (trace : Bool) : Action Body := do
  if isSource path then
    let source ← read path
    let o : Options := { name := Path.stem path }
    let p := Program.parse source
    let body ← ofExcept .compile (p.compile o)
    if trace then
      match p.checked o with
      | .ok cs => log (compiledRecord o p cs body)
      | .error _ => pure ()
    return body
  else loadBody path

end Action
end TapeIL.CommandLine
