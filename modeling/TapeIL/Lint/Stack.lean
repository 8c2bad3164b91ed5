import TapeIL.Lint.Structure

/-!
Stack checks: the depth of the evaluation stack is carried along every edge of control flow. Each
instruction gets the depth of the first path that reaches it and is then visited once.
-/

namespace TapeIL.Lint

/-- The instructions that may run after the one at `index`. -/
def successors (b : Body) (index : Nat) (i : Instruction) : List Nat :=
  match i.op with
  | .ret => []
  | .br => (b.branch? i).toList
  | .brtrue => (b.branch? i).toList ++ [index + 1]
  | _ => [index + 1]

/-- How far the search has come. -/
structure Search where
  /-- The depth before each instruction that was reached. -/
  depths : Array (Option Nat)
  /-- Instructions reached but not visited, the next one first. -/
  pending : List Nat
  /-- What was found, the latest first, with the instruction it was found at. -/
  found : List (Nat × Issue.Cause) := []

namespace Search

/-- Records a cause, unless the instruction has one already. -/
def report (s : Search) (index : Nat) (cause : Issue.Cause) : Search :=
  if s.found.any fun (i, _) => i == index then s
  else { s with found := (index, cause) :: s.found }

/-- Follows an edge to `index` with `depth` values on the stack. -/
def reach (depth : Nat) (s : Search) (index : Nat) : Search :=
  match s.depths[index]? with
  | none => s
  | some none =>
      { s with depths := s.depths.setIfInBounds index (some depth), pending := index :: s.pending }
  | some (some first) =>
      if first = depth then s else s.report index (.inconsistent first depth)

/-- Visits an instruction that is reached with `depth` values on the stack. -/
def visit (b : Body) (s : Search) (index depth : Nat) (i : Instruction) : Search :=
  if depth < i.pop then s.report index (.underflow i.pop depth)
  else
    let after := depth - i.pop + i.push
    let s := if i.op = .ret ∧ after ≠ 0 then s.report index (.leftOver after) else s
    (successors b index i).foldl (reach after) s

/-- Visits pending instructions, at most `fuel` of them. -/
def explore (b : Body) : (fuel : Nat) → Search → Search
  | 0, s => s
  | fuel + 1, s =>
      match s.pending with
      | [] => s
      | index :: pending =>
          let s := { s with pending }
          match b.code[index]?, s.depths[index]? with
          | some i, some (some depth) => explore b fuel (s.visit b index depth i)
          | _, _ => explore b fuel s

/-- The search from the first instruction with an empty stack. -/
def start (b : Body) : Search :=
  reach 0 { depths := Array.replicate b.size none, pending := [] } 0

end Search

/-- The depths found and the issues, the number of instructions bounding the visits. -/
def search (b : Body) : Search :=
  Search.explore b b.size (Search.start b)

def stackIssues (b : Body) : List Issue :=
  let offsets := b.offsets.toArray
  (search b).found.reverse.map fun (index, cause) => issueAt b offsets index cause

end TapeIL.Lint

namespace TapeIL

/-- All issues of a body. The stack is only checked where the structure is sound. -/
def Body.lint (b : Body) : List Issue :=
  match Lint.structureIssues b with
  | [] => Lint.stackIssues b
  | issues => issues

end TapeIL
