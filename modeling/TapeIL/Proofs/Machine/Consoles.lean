import TapeIL.Proofs.Machine.Rules

/-! Machines on different consoles. A console shows another one if each of its answers is the
other's, once the state is seen through a view and the errors go by other names. A machine then
makes the same steps on both of them: an instruction knows its console by the answers alone.
-/

namespace TapeIL

variable {σ τ α β : Type}

/-- Seen through `view`, and with its errors renamed, the second console is the first one. -/
structure Console.Shows (view : τ → σ) (names : ConsoleError → ConsoleError) (c : Console σ)
    (d : Console τ)
    : Prop where
  write (unit : UInt16) (t : τ)
    : c.write unit (view t) = ((d.write unit t).1.mapError names, view (d.write unit t).2)
  readKey (intercept : Bool) (t : τ)
    : c.readKey intercept (view t)
      = ((d.readKey intercept t).1.mapError names, view (d.readKey intercept t).2)

------------------------------------------------------------------------------------------
-- renamed errors
------------------------------------------------------------------------------------------

/-- The fault with an error of the console renamed. -/
def Fault.rename (names : ConsoleError → ConsoleError) : Fault → Fault
  | .console cause => .console (names cause)
  | fault => fault

def Failure.rename (names : ConsoleError → ConsoleError) : Failure → Failure
  | .instruction pc op fault => .instruction pc op (fault.rename names)
  | cause => cause

def Machine.Status.rename (names : ConsoleError → ConsoleError) : Machine.Status → Machine.Status
  | .failed cause => .failed (cause.rename names)
  | status => status

/-- The machine with an error of the console renamed, if one stopped it. -/
def Machine.rename (names : ConsoleError → ConsoleError) (m : Machine) : Machine :=
  { m with status := m.status.rename names }

theorem Fault.rename_id (fault : Fault) : fault.rename id = fault := by
  cases fault <;> rfl

theorem Machine.rename_of_running {names : ConsoleError → ConsoleError} {m : Machine}
    (running : m.status = .running)
    : m.rename names = m := by
  obtain ⟨_, _, _, _, _, _, _, status⟩ := m
  cases running
  rfl

theorem Machine.rename_id (m : Machine) : m.rename id = m := by
  obtain ⟨_, _, _, _, _, _, _, status⟩ := m
  cases status with
  | failed cause =>
      cases cause with
      | instruction pc op fault => simp [rename, Status.rename, Failure.rename, Fault.rename_id]
      | _ => rfl
  | _ => rfl

@[simp] theorem Machine.halted_rename (names : ConsoleError → ConsoleError) (m : Machine)
    : (m.rename names).halted = m.halted := by
  unfold halted Machine.rename Status.rename
  cases m.status <;> rfl

@[simp] theorem Machine.error?_rename (names : ConsoleError → ConsoleError) (m : Machine)
    : (m.rename names).error? = m.error?.map (Failure.rename names) := by
  unfold error? Machine.rename Status.rename
  cases m.status <;> rfl

------------------------------------------------------------------------------------------
-- instructions
------------------------------------------------------------------------------------------

/-- The frame with its console seen through a view. -/
def Frame.seen (view : τ → σ) (f : Frame τ) : Frame σ :=
  ⟨f.stack, f.locals, f.heap, view f.console⟩

namespace Exec

variable {view : τ → σ} {names : ConsoleError → ConsoleError}

/-- On frames that are seen through a view, the first computation does what the second one does on
the frames themselves.
-/
def Shows (view : τ → σ) (names : ConsoleError → ConsoleError) (x : Exec σ α) (y : Exec τ α)
    : Prop :=
  ∀ f : Frame τ,
    x.on (f.seen view) = ((y.on f).1.mapError (Fault.rename names), (y.on f).2.seen view)

section Rules

theorem shows_throw {e : Fault} (same : e.rename names = e)
    : Shows view names (throw e : Exec σ α) (throw e) := by
  intro f
  simp [Except.mapError, same]

theorem Shows.bind {x : Exec σ α} {y : Exec τ α} {k : α → Exec σ β} {l : α → Exec τ β}
    (h : Shows view names x y) (next : ∀ a, Shows view names (k a) (l a))
    : Shows view names (x >>= k) (y >>= l) := by
  intro f
  rw [on_bind, on_bind, h f]
  rcases y.on f with ⟨e | a, g⟩
  · rfl
  · exact next a g

theorem shows_modify {change : Frame σ → Frame σ} {other : Frame τ → Frame τ}
    (same : ∀ f, change (f.seen view) = (other f).seen view)
    : Shows view names (modify change) (modify other) := by
  intro f
  rw [on_modify, on_modify, same]
  rfl

theorem shows_pop : Shows view names pop pop := by
  rintro ⟨stack, locals, heap, t⟩
  cases stack <;> rfl

theorem shows_localValue (slot : UInt8)
    : Shows view names (localValue slot) (localValue slot) := by
  rintro ⟨stack, locals, heap, t⟩
  rw [Frame.seen, localValue_on, localValue_on]
  cases locals[slot.toNat]? <;> rfl

theorem shows_element (ref : Option Nat) (index : Int32)
    : Shows view names (element ref index) (element ref index) := by
  rintro ⟨stack, locals, heap, t⟩
  cases ref with
  | none => rfl
  | some ref =>
      rw [Frame.seen, element_on_some, element_on_some]
      split <;> rfl

/-- An answer and the state behind it are taken over from the other console. -/
theorem shows_consult {answer : σ → Except ConsoleError α × σ}
    {other : τ → Except ConsoleError α × τ}
    (same : ∀ t, answer (view t) = ((other t).1.mapError names, view (other t).2))
    : Shows view names (consult answer) (consult other) := by
  intro f
  obtain ⟨stack, locals, heap, t⟩ := f
  rw [Frame.seen, consult_on, consult_on, same t]
  cases (other t).1 <;> rfl

end Rules

variable {c : Console σ} {d : Console τ}

/-- Computations on two consoles, one of which shows the other. -/
def showing (h : c.Shows view names d) : Discipline c d where
  rel _ _ x y _ _ := Shows view names x y
  permits e := e.rename names = e
  declared _ := True
  stores := True
  plain {e} plain := by cases e <;> first | rfl | cases plain
  pure _ _ _ := rfl
  throw := shows_throw
  bind := Shows.bind
  weaken h _ _ := h
  free _ h := h
  address h := h trivial
  push _ := shows_modify fun _ => rfl
  pop := shows_pop
  localValue _ := shows_localValue _
  element := shows_element
  loadByte _ _ _ := rfl
  write unit := shows_consult (h.write unit)
  readKey intercept := shows_consult (h.readKey intercept)
  setLocal _ _ _ := shows_modify fun _ => rfl
  storeByte _ _ _ _ := shows_modify fun _ => rfl
  allocate _ _ _ := rfl

theorem shows_instruction (h : c.Shows view names d) (body : Body) (pc : Nat) (i : Instruction)
    : Shows view names (instruction c body pc i) (instruction d body pc i) := by
  have admits : (showing h).Admits body i :=
    ⟨fun _ => trivial, fun _ => rfl, fun _ => trivial, fun _ => .inl id, fun _ => .inr rfl⟩
  exact admits.instruction pc 0

end Exec

------------------------------------------------------------------------------------------
-- machines
------------------------------------------------------------------------------------------

namespace Machine

variable {view : τ → σ} {names : ConsoleError → ConsoleError} {c : Console σ} {d : Console τ}

theorem execute_rename (h : c.Shows view names d) (m : Machine) (t : τ) (i : Instruction)
    : (m.rename names).execute c (view t) i
      = ((m.execute d t i).1.rename names, view (m.execute d t i).2) := by
  have same := Exec.shows_instruction h m.body m.pc i (m.frame t)
  rcases outcome : (Exec.instruction d m.body m.pc i).on (m.frame t) with ⟨fault | next, f⟩
  · rw [outcome] at same
    rw [execute_error outcome, execute_error (m := m.rename names) (s := view t) same]
    rfl
  · rw [outcome] at same
    rw [execute_ok outcome, execute_ok (m := m.rename names) (s := view t) same]
    cases next.returned <;> rfl

theorem breakOff_rename (names : ConsoleError → ConsoleError) (m : Machine)
    : (m.rename names).breakOff = m.breakOff.rename names := by
  obtain ⟨_, _, _, _, _, _, _, status⟩ := m
  cases status <;> rfl

/-- A tick on the first console is the tick on the second one, seen through the view. -/
theorem tick_rename (h : c.Shows view names d) (m : Machine) (t : τ)
    : (m.rename names).tick c (view t)
      = ((m.tick d t).1, (m.tick d t).2.1.rename names, view (m.tick d t).2.2) := by
  rcases m.tick_cases d t with ⟨still, same⟩ | ⟨running, limit, same⟩ | ⟨running, limit, here, same⟩
    | ⟨i, running, limit, here, prints, same⟩ | ⟨i, running, limit, here, prints, same⟩ <;>
    rw [same]
  · have still : (m.rename names).status ≠ .running := by
      cases hs : m.status <;> simp_all [Machine.rename, Status.rename]
    exact tick_of_not_running c (view t) still
  · rw [rename_of_running running]
    simp [tick, running, limit, Machine.rename, Status.rename, Failure.rename]
  · rw [rename_of_running running]
    simp [tick, running, limit, here, Machine.rename, Status.rename, Failure.rename]
  · rw [← execute_rename h, rename_of_running running]
    simp [tick, running, limit, here, prints]
  · have executed := execute_rename h m t i
    rw [rename_of_running running] at executed ⊢
    simp [tick, running, limit, here, prints, executed, breakOff_rename]

theorem ticks_rename (h : c.Shows view names d) (count : Nat) (m : Machine) (t : τ)
    : (m.rename names).ticks c count (view t)
      = ((m.ticks d count t).1.rename names, view (m.ticks d count t).2) := by
  induction count generalizing m t with
  | zero => rfl
  | succ count ih =>
      rw [ticks, tick_rename h m t]
      exact ih _ _

theorem drive_rename (h : c.Shows view names d) (fuel : Nat) (m : Machine) (t : τ)
    : (m.rename names).drive c fuel (view t)
      = ((m.drive d fuel t).1, (m.drive d fuel t).2.1.rename names,
          view (m.drive d fuel t).2.2) := by
  induction fuel generalizing m t with
  | zero => rfl
  | succ fuel ih =>
      rw [drive_succ, drive_succ, tick_rename h m t]
      split
      · exact ih _ _
      · rfl

theorem run_rename (h : c.Shows view names d) (fuel : Nat) (m : Machine) (t : τ)
    : (m.rename names).run c fuel (view t)
      = ((m.run d fuel t).1.rename names, view (m.run d fuel t).2) := by
  rw [run, drive_rename h fuel m t]
  rfl

end Machine
end TapeIL
