import TapeIL.Bytes
import TapeIL.CommandLine.Action
import TapeIL.CommandLine.Basic
import TapeIL.CommandLine.Compile
import TapeIL.CommandLine.Decompile
import TapeIL.CommandLine.Disassemble
import TapeIL.CommandLine.Flag
import TapeIL.CommandLine.Run
import TapeIL.CommandLine.Script
import TapeIL.CommandLine.Verify
import TapeIL.Digest.Blake2b
import TapeIL.FileSystem
import TapeIL.IL.Body
import TapeIL.IL.Instruction
import TapeIL.IL.Listing
import TapeIL.IL.OpCode
import TapeIL.IL.Reference
import TapeIL.Lint.Issue
import TapeIL.Lint.Stack
import TapeIL.Lint.Structure
import TapeIL.Machine.Basic
import TapeIL.Machine.Console
import TapeIL.Machine.Display
import TapeIL.Machine.Fault
import TapeIL.Machine.Step
import TapeIL.Machine.Trace
import TapeIL.Machine.Value
import TapeIL.Main
import TapeIL.Module.Basic
import TapeIL.Module.Build
import TapeIL.Module.Decode
import TapeIL.Module.Encode
import TapeIL.Module.References
import TapeIL.Options
import TapeIL.Path
import TapeIL.Profile
import TapeIL.Proofs.Bytes
import TapeIL.Proofs.CommandLine.Action
import TapeIL.Proofs.CommandLine.Compile
import TapeIL.Proofs.CommandLine.Outputs
import TapeIL.Proofs.FileSystem
import TapeIL.Proofs.IL.Body
import TapeIL.Proofs.IL.Listing
import TapeIL.Proofs.IL.Reference
import TapeIL.Proofs.IL.Sameness
import TapeIL.Proofs.Lint.Compiled
import TapeIL.Proofs.Lint.Effect
import TapeIL.Proofs.Lint.Exactness
import TapeIL.Proofs.Lint.Levels
import TapeIL.Proofs.Lint.Search
import TapeIL.Proofs.Lint.Soundness
import TapeIL.Proofs.Machine.Budget
import TapeIL.Proofs.Machine.Consoles
import TapeIL.Proofs.Machine.Footprint
import TapeIL.Proofs.Machine.Frame
import TapeIL.Proofs.Machine.Memory
import TapeIL.Proofs.Machine.Rules
import TapeIL.Proofs.Machine.Run
import TapeIL.Proofs.Machine.Safety
import TapeIL.Proofs.Module.Buffer
import TapeIL.Proofs.Module.Canonical
import TapeIL.Proofs.Module.Code
import TapeIL.Proofs.Module.Decoded
import TapeIL.Proofs.Module.Execution
import TapeIL.Proofs.Module.Failure
import TapeIL.Proofs.Module.Fields
import TapeIL.Proofs.Module.Identity
import TapeIL.Proofs.Module.Offsets
import TapeIL.Proofs.Module.RoundTrip
import TapeIL.Proofs.Module.Safety
import TapeIL.Proofs.Module.Stored
import TapeIL.Proofs.Module.Tables
import TapeIL.Proofs.Module.Truncation
import TapeIL.Proofs.Session.Agreement
import TapeIL.Proofs.Session.Isolation
import TapeIL.Proofs.Tape.Brackets
import TapeIL.Proofs.Tape.Layout
import TapeIL.Proofs.Tape.Matching
import TapeIL.Proofs.Tape.Pairing
import TapeIL.Proofs.Tape.Recognition
import TapeIL.Proofs.Tape.Rejection
import TapeIL.Proofs.Tape.RoundTrip
import TapeIL.Proofs.Tape.Semantics
import TapeIL.Proofs.Tape.Simulation
import TapeIL.Proofs.Tape.Windows
import TapeIL.Proofs.Text.Glyph
import TapeIL.Proofs.Version
import TapeIL.Report
import TapeIL.Session
import TapeIL.Tape.Compile
import TapeIL.Tape.Decompile
import TapeIL.Tape.Program
import TapeIL.Tape.Window
import TapeIL.Text.Blank
import TapeIL.Text.Glyph
import TapeIL.Text.Log
import TapeIL.Text.Numeral
import TapeIL.Text.Printable
import TapeIL.Text.Quoted
import TapeIL.Text.Table
import TapeIL.Text.Width
import TapeIL.Version
import TapeIL.Yaml.Characters
import TapeIL.Yaml.Document
import TapeIL.Yaml.Node
import TapeIL.Yaml.Reading
import TapeIL.Yaml.Scalar
import TapeIL.Yaml.Source
import TapeIL.Yaml.Token
import TapeIL.Yaml.Tokens
import TapeIL.Yaml.Write
