import TapeIL.Lint.Issue

/-!
Structural checks: opcodes, branch targets and local slots of every instruction, and that control
does not run past the last one.
-/

namespace TapeIL.Lint

/-- An issue with the instruction at `index`. -/
def issueAt (b : Body) (offsets : Array Nat) (index : Nat) (cause : Issue.Cause) : Issue :=
  { cause
    place := (b.code[index]?).map fun i =>
      { index, offset := offsets[index]?.getD 0, op := i.op } }

def targetCauses (b : Body) (i : Instruction) : List Issue.Cause :=
  if i.op.isBranch then
    match i.target? with
    | none => [.noTarget]
    | some target => if (b.resolve? target).isSome then [] else [.targetOutside]
  else []

def slotCauses (b : Body) (i : Instruction) : List Issue.Cause :=
  match i.slot? with
  | some slot =>
      if slot.toNat < b.locals.length then [] else [.undeclaredLocal slot b.locals.length]
  | none => []

/-- What is wrong with an instruction by itself. -/
def instructionCauses (b : Body) (i : Instruction) : List Issue.Cause :=
  if i.op.isValid then targetCauses b i ++ slotCauses b i else [.unknownOpcode i.op.number]

/-- Whether control never goes on to what is behind the instruction. -/
def endsFlow (i : Instruction) : Bool :=
  i.op == .ret || i.op == .br

def structureIssues (b : Body) : List Issue :=
  match b.code.back? with
  | none => [{ cause := .emptyBody, place := none }]
  | some last =>
      let offsets := b.offsets.toArray
      let inner := b.code.toList.zipIdx.flatMap fun (i, index) =>
        (instructionCauses b i).map (issueAt b offsets index)
      inner ++ if endsFlow last then [] else [issueAt b offsets (b.size - 1) .fallsThrough]

end TapeIL.Lint
