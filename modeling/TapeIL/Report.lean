import TapeIL.Lint.Stack
import TapeIL.Session
import TapeIL.Text.Quoted
import TapeIL.Text.Table

/-!
Verification reports: the static checks of a body, and a run of it unless its structure is broken.
-/

namespace TapeIL

/-- How a run for a report went. -/
structure Report.Execution where
  error? : Option SessionError
  steps : Nat
  output : Bytes
deriving DecidableEq, Repr, Inhabited

structure Report where
  size : Nat
  codeSize : Nat
  issues : List Issue
  input : Bytes
  execution? : Option Report.Execution
deriving DecidableEq, Repr, Inhabited

namespace Report

def structuralIssues (r : Report) : List Issue :=
  r.issues.filter fun i => i.category == .structural

def stackIssues (r : Report) : List Issue :=
  r.issues.filter fun i => i.category == .stack

/-- Runs a body in a session of its own. -/
def execute (fuel : Nat) (b : Body) (input : Bytes) (limit : Int) : Execution :=
  let session := ((Session.new (text "Verify") limit).feedIn input).map b
  let (error?, session) := session.run fuel
  { error?, steps := session.machine.steps, output := session.collect }

def generate (fuel : Nat) (b : Body) (input : Bytes) (limit : Int) : Report :=
  let issues := b.lint
  let sound := issues.all fun i => i.category != .structural
  { size := b.size
    codeSize := b.codeSize
    issues
    input
    execution? := if sound then some (execute fuel b input limit) else none }

def executionError? (r : Report) : Option SessionError :=
  r.execution?.bind Execution.error?

/-- Whether the body ran without an error. -/
def executedWell (r : Report) : Bool :=
  match r.execution? with
  | some e => e.error?.isNone
  | none => false

def passed (r : Report) : Bool :=
  r.issues.isEmpty && r.executedWell

def steps (r : Report) : Nat :=
  (r.execution?.map Execution.steps).getD 0

def output (r : Report) : Bytes :=
  (r.execution?.map Execution.output).getD []

/-- The error that a run ended with, or that there was none. -/
def errorText (r : Report) : Bytes :=
  match r.executionError? with
  | some e => e.message
  | none => text "<nil>"

def rule : Bytes :=
  List.replicate 60 (Bytes.code '=')

/-- A heading between two rules. -/
def heading (title : Bytes) : Bytes :=
  rule ++ text "\n" ++ title ++ text "\n" ++ rule ++ text "\n"

def issueRow (number : Nat) (i : Issue) : List Table.Cell :=
  let (offset, op) :=
    match i.place with
    | some p => (Body.offsetLabel p.offset, p.op.name)
    | none => (text "-", [])
  [.number (Bytes.decimal number), .words i.category.name, .words offset, .words op,
    .words i.message]

def issueTable (r : Report) : Table :=
  { title := text "Lint Issues"
    header := [text "#", text "Type", text "Offset", text "OpCode", text "Message"]
    rows := r.issues.mapIdx fun k i => issueRow (k + 1) i }

def lintText (r : Report) : Bytes :=
  if r.issues.isEmpty then text "✓ No lint issues found!\n"
  else
    text "⚠ Found " ++ Bytes.decimal r.issues.length ++ text " lint issues:\n\n"
      ++ r.issueTable.toText ++ text "\n"

def executionText (r : Report) : Bytes :=
  match r.execution? with
  | none => text "⚠ Skipped: body has structural issues\n"
  | some e =>
      match e.error? with
      | none => text "✓ Execution completed in " ++ Bytes.decimal e.steps ++ text " steps\n"
      | some cause =>
          text "⚠ Execution error after " ++ Bytes.decimal e.steps ++ text " steps: "
            ++ cause.message ++ text "\n"

def executionStatus (r : Report) : Bytes :=
  match r.execution? with
  | none => text "SKIPPED"
  | some e =>
      match e.error? with
      | none => text "SUCCESS"
      | some cause => text "FAILED: " ++ cause.message

def summaryTable (r : Report) : Table :=
  let counts :=
    Bytes.decimal r.issues.length ++ text " issues (" ++ Bytes.decimal r.structuralIssues.length
      ++ text " STRUCT, " ++ Bytes.decimal r.stackIssues.length ++ text " STACK)"
  { header := [text "Check", text "Result"]
    rows := [
      [.words (text "Lint"), .words counts],
      [.words (text "Execution"), .words r.executionStatus],
      [.words (text "Input"), .words r.input.quoted],
      [.words (text "Output"), .words r.output.quoted]] }

def toText (r : Report) : Bytes :=
  heading (text "METHOD BODY VERIFICATION REPORT")
    ++ text "\n✓ Loaded " ++ Bytes.decimal r.size ++ text " instructions ("
    ++ Bytes.decimal r.codeSize ++ text " bytes of code)\n"
    ++ text "\n" ++ heading (text "STAGE 1: STATIC LINT CHECKS") ++ r.lintText
    ++ text "\n" ++ heading (text "STAGE 2: EXECUTION") ++ r.executionText
    ++ text "\n" ++ heading (text "VERIFICATION SUMMARY") ++ r.summaryTable.toText ++ text "\n"
    ++ (if r.passed then text "\n✓ METHOD BODY PASSED ALL CHECKS\n" else [])
    ++ text "\n"

end Report
end TapeIL
