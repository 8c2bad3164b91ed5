import TapeIL.Proofs.Machine.Checked
import TapeIL.Proofs.Machine.Memory

/-! Machines are safe, but for branch targets that are unset. In every state that a machine can be
brought to, the accesses of a tick and of the display are inside of what they access, so that
checking them changes nothing; only printing an instruction can access a target that is not there.
-/

namespace TapeIL

variable {σ α β : Type}

namespace Checked

------------------------------------------------------------------------------------------
-- accesses
------------------------------------------------------------------------------------------

/-- From frames with `P` the checked computation makes no access outside, and does what the other
one does.
-/
def Follows (P : Frame σ → Prop) (x : Checked σ α) (y : Exec σ α) : Prop :=
  ∀ f, P f → x.run.run f = .ok (y.on f)

variable {P : Frame σ → Prop} {slots : Nat}

theorem Follows.bind {x : Checked σ α} {y : Exec σ α} {k : α → Checked σ β} {l : α → Exec σ β}
    {Q : α → Frame σ → Prop} {E : Fault → Frame σ → Prop} (h : Follows P x y)
    (triple : Exec.Triple P y Q E) (next : ∀ a, Follows (Q a) (k a) (l a))
    : Follows P (x >>= k) (y >>= l) := by
  intro f before
  rw [Exec.on_bind]
  change (x.run.run f).bind _ = _
  rw [h f before]
  rcases outcome : y.on f with ⟨fault | a, middle⟩
  · rfl
  · exact next a middle (triple.ok before outcome)

section Machines

variable {m : Machine} (sound : m.Sound)
include sound

end Machines

------------------------------------------------------------------------------------------
-- the display
------------------------------------------------------------------------------------------

end Checked

------------------------------------------------------------------------------------------
-- failures
------------------------------------------------------------------------------------------

/-- A machine, and the console that is attached to it. -/
structure Setup where
  {device : Type}
  machine : Machine
  console : Console device
  state : device

namespace Setup

/-- What can be done to a machine from outside. -/
inductive Call where
  | map (body : Body)
  | tick
  /-- Attaches another console in place of the one that is there. -/
  | attach {device : Type} (console : Console device) (state : device)

/-- A machine without a body and without a console. -/
def new (limit : Int) : Setup :=
  { machine := .new limit, console := Console.absent, state := () }

def make (s : Setup) : Call → Setup
  | .map body => { s with machine := s.machine.map body }
  | .tick =>
      let (_, machine, state) := s.machine.tick s.console s.state
      { s with machine, state }
  | .attach console state => { machine := s.machine, console, state }

/-- The setup behind a history of calls. -/
def after (s : Setup) (calls : List Call) : Setup :=
  calls.foldl make s

theorem sound_make {s : Setup} (h : s.machine.Sound) (call : Call)
    : (s.make call).machine.Sound := by
  cases call with
  | map body => exact s.machine.sound_map body
  | tick => exact h.tick s.console s.state
  | attach console state => exact h

/-- A history keeps a machine sound, by induction on its calls. -/
theorem sound_after {s : Setup} (h : s.machine.Sound) (calls : List Call)
    : (s.after calls).machine.Sound := by
  induction calls generalizing s with
  | nil => exact h
  | cons call rest ih => exact ih (sound_make h call)

end Setup

end TapeIL
