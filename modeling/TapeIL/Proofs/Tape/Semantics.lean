import Mathlib
import TapeIL.Machine.Console
import TapeIL.Tape.Program

/-! The direct meaning of tape programs. A program with matched brackets is a block; a run of it
changes cells, a pointer and a console, one action or loop test a step.
-/

namespace TapeIL.Tape

/-- The commands that are no brackets. -/
inductive Action where
  | moveRight
  | moveLeft
  | increment
  | decrement
  | output
  | input
deriving DecidableEq, Repr

def Action.command : Action → Command
  | .moveRight => .moveRight
  | .moveLeft => .moveLeft
  | .increment => .increment
  | .decrement => .decrement
  | .output => .output
  | .input => .input

/-- A program whose brackets match: actions and loops, one after another. -/
inductive Block where
  | done
  | action (a : Action) (rest : Block)
  | loop (body rest : Block)
deriving DecidableEq, Repr

namespace Block

/-- The commands a block is written with. -/
def commands : Block → List Command
  | .done => []
  | .action a rest => a.command :: rest.commands
  | .loop body rest => .loopStart :: body.commands ++ .loopEnd :: rest.commands

def tokens (b : Block) : List Token :=
  b.commands.map .ofCommand

/-- One block and then another. -/
def append : Block → Block → Block
  | .done, next => next
  | .action a rest, next => .action a (rest.append next)
  | .loop body rest, next => .loop body (rest.append next)

end Block

/-- How a run ends. -/
inductive Outcome where
  | finished
  /-- A cell was touched while the pointer was at none of the cells. -/
  | outOfRange (pointer : Int32) (cells : Nat)
  | console (cause : ConsoleError)
deriving DecidableEq, Repr

/-- What a program works on. -/
structure State (σ : Type) where
  cells : List UInt8
  pointer : Int32
  console : σ

namespace State

variable {σ : Type}

/-- The cell that the pointer is at. -/
def current? (t : State σ) : Option UInt8 :=
  if 0 ≤ t.pointer.toInt then t.cells[t.pointer.toInt.toNat]? else none

/-- The state with another value in the cell that the pointer is at. -/
def store (t : State σ) (b : UInt8) : State σ :=
  { t with cells := t.cells.set t.pointer.toInt.toNat b }

/-- The end of a run that touches a cell while there is none. -/
def outside (t : State σ) : Outcome :=
  .outOfRange t.pointer t.cells.length

/-- Touches the current cell. -/
def touch (t : State σ) (use : UInt8 → Option Outcome × State σ) : Option Outcome × State σ :=
  match t.current? with
  | some b => use b
  | none => (some t.outside, t)

/-- Performs an action, with the outcome if it ends the run. -/
def perform (c : Console σ) (intercept : Bool) (t : State σ)
    : Action → Option Outcome × State σ
  | .moveRight => (none, { t with pointer := t.pointer + 1 })
  | .moveLeft => (none, { t with pointer := t.pointer - 1 })
  | .increment => t.touch fun b => (none, t.store (b + 1))
  | .decrement => t.touch fun b => (none, t.store (b - 1))
  | .output =>
      t.touch fun b =>
        match c.write b.toUInt16 t.console with
        | (.ok _, console) => (none, { t with console })
        | (.error e, console) => (some (.console e), { t with console })
  | .input =>
      match c.readKey intercept t.console with
      | (.ok key, console) =>
          let t := { t with console }
          t.touch fun _ => (none, t.store key.toUInt8)
      | (.error e, console) => (some (.console e), { t with console })

end State

/-- A run in progress, or one that has come to its outcome. -/
structure Run (σ : Type) where
  rest : Block
  state : State σ
  outcome? : Option Outcome := none

namespace Run

variable {σ : Type}

/-- All cells and the pointer are zero at first. -/
def start (cells : Nat) (program : Block) (console : σ) : Run σ :=
  { rest := program, state := { cells := List.replicate cells 0, pointer := 0, console } }

/-- Performs one action or tests one loop; a loop is tested before each of its rounds. -/
def step (c : Console σ) (intercept : Bool) (r : Run σ) : Run σ :=
  match r.outcome?, r.rest with
  | some _, _ => r
  | none, .done => { r with outcome? := some .finished }
  | none, .action a rest =>
      let (outcome?, state) := r.state.perform c intercept a
      { rest, state, outcome? }
  | none, .loop body rest =>
      match r.state.current? with
      | none => { r with outcome? := some r.state.outside }
      | some b => { r with rest := if b = 0 then rest else body.append (.loop body rest) }

/-- The run after a number of steps. -/
def after (c : Console σ) (intercept : Bool) : (count : Nat) → Run σ → Run σ
  | 0, r => r
  | count + 1, r => after c intercept count (r.step c intercept)

/-- A run that has ended stays as it is. -/
theorem after_of_ended (c : Console σ) (intercept : Bool) (count : Nat) {r : Run σ}
    {outcome : Outcome} (h : r.outcome? = some outcome)
    : r.after c intercept count = r := by
  have still : r.step c intercept = r := by simp [step, h]
  induction count with
  | zero => rfl
  | succ count ih => rw [after, still, ih]

/-- What every action keeps of the state, every run keeps, by induction on its steps. -/
theorem after_keeps {c : Console σ} {intercept : Bool} {P : State σ → Prop}
    (keeps : ∀ t a, P t → P (t.perform c intercept a).2) (count : Nat) {r : Run σ}
    (h : P r.state)
    : P (r.after c intercept count).state := by
  induction count generalizing r with
  | zero => exact h
  | succ count ih =>
      apply ih
      unfold step
      split
      · exact h
      · exact h
      · exact keeps _ _ h
      · split <;> exact h

end Run

section Runs

variable {σ : Type} (c : Console σ) (intercept : Bool)

/-- An action changes no cell but the current one, so their number stays. -/
theorem State.length_perform (t : State σ) (a : Action)
    : (t.perform c intercept a).2.cells.length = t.cells.length := by
  cases a <;> simp only [perform, touch] <;> grind [State.store]

theorem Run.length_after (count : Nat) (r : Run σ)
    : (r.after c intercept count).state.cells.length = r.state.cells.length :=
  after_keeps (P := fun t => t.cells.length = r.state.cells.length)
    (fun t a h => (t.length_perform c intercept a).trans h) count rfl

/-- All keys that a recorded console was asked for were read with one setting. -/
def State.KeysRead (t : State (σ × List Console.Call)) : Prop :=
  ∀ flag, .readKey flag ∈ t.console.2 → flag = intercept

theorem State.keysRead_perform (t : State (σ × List Console.Call)) (a : Action)
    (h : t.KeysRead intercept)
    : (t.perform c.recorded intercept a).2.KeysRead intercept := by
  unfold KeysRead at *
  cases a <;> simp only [perform, touch, Console.recorded] <;> grind [State.store]

theorem Run.keysRead_after (count : Nat) {r : Run (σ × List Console.Call)}
    (h : r.state.KeysRead intercept)
    : (r.after c.recorded intercept count).state.KeysRead intercept :=
  after_keeps (State.keysRead_perform c intercept) count h

end Runs

end TapeIL.Tape
