import TapeIL.Machine.Basic
import TapeIL.Text.Log

/-!
Traces: log records of the instructions that a machine executes and of the state it halts in.
-/

namespace TapeIL.Machine

variable {σ : Type}

def coreAttribute (name : Bytes) : Bytes × Log.Value :=
  (text "Core", .words name)

/-- The record of an executed instruction, with the size of the stack behind it. -/
def instructionRecord (name : Bytes) (before after : Machine) (i : Instruction) : Log.Record :=
  { level := .trace
    message := text "Inst"
    attributes := [coreAttribute name, (text "PC", .number before.pc),
      (text "Inst", .words (i.toText before.body.mnemonic)),
      (text "Stack", .number after.stack.length)] }

def haltRecord (name : Bytes) (m : Machine) : Log.Record :=
  { level := .trace
    message := text "Halt"
    attributes := [coreAttribute name, (text "Steps", .number m.steps)]
      ++ match m.error? with
        | some e => [(text "Error", .words e.message)]
        | none => [] }

def stateRecord (name : Bytes) (m : Machine) : Log.Record :=
  { level := .debug
    message := text "StateCheckpoint"
    attributes := [coreAttribute name, (text "PC", .number m.pc), (text "Steps", .number m.steps),
      (text "Stack", .number m.stack.length), (text "Pointer", .number m.pointer),
      (text "Halted", .truth m.halted)] }

/-- The records of one tick. A tick that crashes does so before the first of them. -/
def tickRecords (name : Bytes) (turn : Turn) (before after : Machine) : List Log.Record :=
  let executed := (before.body.code[before.pc]?.map (instructionRecord name before after)).toList
  let halted :=
    if after.halted && !before.halted then [haltRecord name after, stateRecord name after] else []
  match turn with
  | .rest => halted
  | .step => executed ++ halted
  | .crash => []

/-- Runs a machine as `run` does, and adds the records of its ticks to those so far. -/
def runTraced (c : Console σ) (name : Bytes) :
    (fuel : Nat) → Array Log.Record → Machine → σ → Array Log.Record × Machine × σ
  | 0, records, m, s => (records, m, s)
  | fuel + 1, records, m, s =>
      match m.tick c s with
      | (turn, after, s) =>
          let records := records ++ tickRecords name turn m after
          if turn = .step then runTraced c name fuel records after s else (records, after, s)

end TapeIL.Machine
