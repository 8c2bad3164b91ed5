import TapeIL.Machine.Basic
import TapeIL.Proofs.IL.Body
import TapeIL.Proofs.Machine.Frame

/-! Runs of the machine: what one instruction does to a running machine, and what a stretch of
code without branches does. Runs are compared by the fuel that is left behind them.
-/

namespace TapeIL

variable {σ : Type}

namespace Instruction

/-- Control always goes on to the next instruction. -/
def isStraight (i : Instruction) : Bool :=
  match i.op with
  | .ret | .br | .brtrue => false
  | _ => true

end Instruction

namespace Exec

/-- The effects of straight-line code, one after another. -/
def block (c : Console σ) : List Instruction → Exec σ Unit
  | [] => pure ()
  | i :: rest => do
      effect c i
      block c rest

theorem instruction_straight (c : Console σ) (body : Body) (pc : Nat) {i : Instruction}
    (h : i.isStraight = true)
    : instruction c body pc i = do
        effect c i
        return { pc := pc + 1 } := by
  unfold instruction
  split <;> simp_all [Instruction.isStraight]

end Exec

namespace Machine

/-- What instructions of a machine work on. -/
def frame (m : Machine) (s : σ) : Frame σ :=
  ⟨m.stack, m.locals, m.heap, s⟩

/-- The machine behind `count` further instructions that have left the given frame. -/
def advance (m : Machine) (count : Nat) (f : Frame σ) : Machine :=
  { m with
    pc := m.pc + count
    stack := f.stack
    locals := f.locals
    heap := f.heap
    steps := m.steps + count }

/-- The machine stopped by a fault of the instruction it is at. -/
def fail (m : Machine) (f : Frame σ) (op : OpCode) (e : Fault) : Machine :=
  { m with
    stack := f.stack
    locals := f.locals
    heap := f.heap
    steps := m.steps + 1
    status := .failed (.instruction m.pc op e) }

/-- From one machine and console the run comes to another one after `count` ticks. -/
def Goes (c : Console σ) (count : Nat) (m : Machine) (s : σ) (next : Machine) (t : σ) : Prop :=
  ∀ fuel, m.run c (fuel + count) s = next.run c fuel t

theorem drive_succ (c : Console σ) (fuel : Nat) (m : Machine) (s : σ)
    : m.drive c (fuel + 1) s
      = if (m.tick c s).1 = .step then (m.tick c s).2.1.drive c fuel (m.tick c s).2.2
        else m.tick c s := by
  rw [drive]
  rcases m.tick c s with ⟨_ | _ | _, next, t⟩ <;> rfl

theorem run_succ (c : Console σ) (fuel : Nat) (m : Machine) (s : σ)
    : m.run c (fuel + 1) s
      = if (m.tick c s).1 = .step then (m.tick c s).2.1.run c fuel (m.tick c s).2.2
        else (m.tick c s).2 := by
  rw [run, drive_succ]
  split <;> rfl

theorem Goes.refl (c : Console σ) (m : Machine) (s : σ) : Goes c 0 m s m s :=
  fun _ => rfl

theorem Goes.trans {c : Console σ} {first second : Nat} {m middle last : Machine} {s t u : σ}
    (h : Goes c first m s middle t) (g : Goes c second middle t last u)
    : Goes c (first + second) m s last u := by
  intro fuel
  rw [← g fuel, ← h (fuel + second), Nat.add_comm first, Nat.add_assoc]

/-- With just the fuel it needs, a run ends where it comes to. -/
theorem Goes.run_eq {c : Console σ} {count : Nat} {m next : Machine} {s t : σ}
    (h : Goes c count m s next t)
    : m.run c count s = (next, t) := by
  simpa [run, drive] using h 0

theorem tick_of_halted (c : Console σ) {m : Machine} (s : σ) (h : m.halted = true)
    : m.tick c s = (.rest, m, s) := by
  unfold halted at h
  cases hs : m.status <;> simp_all [tick]

/-- A halted machine stays as it is. -/
theorem run_of_halted (c : Console σ) (fuel : Nat) {m : Machine} (s : σ)
    (h : m.halted = true)
    : m.run c fuel s = (m, s) := by
  cases fuel with
  | zero => rfl
  | succ fuel =>
      rw [run_succ, tick_of_halted c s h]
      rfl

/-- Fuel beyond a halt changes nothing, by induction on the fuel that reached it. -/
theorem run_add_of_halted (c : Console σ) (fuel more : Nat) {m : Machine} (s : σ)
    (h : (m.run c fuel s).1.halted = true)
    : m.run c (fuel + more) s = m.run c fuel s := by
  induction fuel generalizing m s with
  | zero =>
      rw [Nat.zero_add]
      exact run_of_halted c more s h
  | succ fuel ih =>
      rw [Nat.add_right_comm, run_succ, run_succ]
      rw [run_succ] at h
      split
      next step =>
        rw [if_pos step] at h
        exact ih _ h
      next => rfl

/-- Two runs that have both halted are the same run. -/
theorem run_eq_of_halted (c : Console σ) {fuel other : Nat} {m : Machine} (s : σ)
    (h : (m.run c fuel s).1.halted = true) (g : (m.run c other s).1.halted = true)
    : m.run c fuel s = m.run c other s := by
  rw [← run_add_of_halted c fuel other s h, Nat.add_comm, run_add_of_halted c other fuel s g]

/-- A halting run can be taken up anywhere on its way. -/
theorem Goes.run_of_halted {c : Console σ} {count : Nat} {m next : Machine} {s t : σ}
    (h : Goes c count m s next t) {fuel : Nat} (halted : (m.run c fuel s).1.halted = true)
    : m.run c fuel s = next.run c fuel t := by
  rw [← h fuel, run_add_of_halted c fuel count s halted]

theorem Goes.halts_iff {c : Console σ} {count : Nat} {m next : Machine} {s t : σ}
    (h : Goes c count m s next t)
    : (∃ fuel, (m.run c fuel s).1.halted = true)
      ↔ ∃ fuel, (next.run c fuel t).1.halted = true := by
  constructor
  · rintro ⟨fuel, halted⟩
    exact ⟨fuel, by rwa [← h.run_of_halted halted]⟩
  · rintro ⟨fuel, halted⟩
    exact ⟨fuel + count, by rwa [h fuel]⟩

section Running

variable {c : Console σ} {m : Machine} {s : σ}

/-- An unlimited machine executes the instruction it is at. -/
theorem goes_execute {i : Instruction} (running : m.status = .running)
    (unlimited : m.limit = none) (here : m.body.code[m.pc]? = some i) (prints : i.prints = true)
    : Goes c 1 m s (m.execute c s i).1 (m.execute c s i).2 := by
  intro fuel
  simp [run_succ, tick, running, atLimit, unlimited, here, prints]

theorem execute_ok {i : Instruction} {next : Next} {f : Frame σ}
    (done : (Exec.instruction c m.body m.pc i).on (m.frame s) = (.ok next, f))
    : m.execute c s i
      = ({ m.advance 1 f with
            pc := next.pc
            status := if next.returned then .returned else .running }, f.console) := by
  simp only [execute, Exec.on, frame] at done ⊢
  rw [done]
  rfl

theorem execute_error {i : Instruction} {e : Fault} {f : Frame σ}
    (fault : (Exec.instruction c m.body m.pc i).on (m.frame s) = (.error e, f))
    : m.execute c s i = (m.fail f i.op e, f.console) := by
  simp only [execute, Exec.on, frame] at fault ⊢
  rw [fault]
  rfl

/-- A straight-line instruction without fault leads to the next one. -/
theorem goes_straight {i : Instruction} {f : Frame σ} (running : m.status = .running)
    (unlimited : m.limit = none) (here : m.body.code[m.pc]? = some i)
    (straight : i.isStraight = true) (prints : i.prints = true)
    (done : (Exec.effect c i).on (m.frame s) = (.ok (), f))
    : Goes c 1 m s (m.advance 1 f) f.console := by
  have whole : (Exec.instruction c m.body m.pc i).on (m.frame s)
      = (.ok { pc := m.pc + 1 }, f) := by
    rw [Exec.instruction_straight c m.body m.pc straight, Exec.on_bind_ok done, Exec.on_pure]
  have step := goes_execute (c := c) (s := s) running unlimited here prints
  rw [execute_ok whole] at step
  simpa [advance, running] using step

/-- A fault of a straight-line instruction stops the machine. -/
theorem goes_fault {i : Instruction} {e : Fault} {f : Frame σ} (running : m.status = .running)
    (unlimited : m.limit = none) (here : m.body.code[m.pc]? = some i)
    (straight : i.isStraight = true) (prints : i.prints = true)
    (fault : (Exec.effect c i).on (m.frame s) = (.error e, f))
    : Goes c 1 m s (m.fail f i.op e) f.console := by
  have whole : (Exec.instruction c m.body m.pc i).on (m.frame s) = (.error e, f) := by
    rw [Exec.instruction_straight c m.body m.pc straight, Exec.on_bind_error fault]
  have step := goes_execute (c := c) (s := s) running unlimited here prints
  rwa [execute_error whole] at step

/-- A jump to an instruction of the body is made in one tick. -/
theorem goes_jump {target : Nat} (running : m.status = .running) (unlimited : m.limit = none)
    (here : m.body.code[m.pc]? = some ⟨.br, .target (.position target)⟩)
    (inside : target < m.body.size)
    : Goes c 1 m s { m.advance 1 (m.frame s) with pc := target } s := by
  have jump
      : (Exec.instruction c m.body m.pc ⟨.br, .target (.position target)⟩).on (m.frame s)
        = (.ok { pc := target }, m.frame s) := by
    simp [Exec.instruction, Exec.jump, Body.branch?, Instruction.target?, Body.resolve?, inside]
  have goes := goes_execute (c := c) (s := s) running unlimited here rfl
  rw [execute_ok jump] at goes
  simpa [advance, frame, running] using goes

/-- A conditional jump goes to its target unless the number on the stack is zero. -/
theorem goes_jumpIfTrue {target : Nat} {value : Int32} (running : m.status = .running)
    (unlimited : m.limit = none)
    (here : m.body.code[m.pc]? = some ⟨.brtrue, .target (.position target)⟩)
    (inside : target < m.body.size) (top : m.stack = [.int value])
    : Goes c 1 m s
        { m.advance 1 { m.frame s with stack := [] } with
          pc := if value = 0 then m.pc + 1 else target } s := by
  have jump
      : (Exec.instruction c m.body m.pc ⟨.brtrue, .target (.position target)⟩).on (m.frame s)
        = (.ok { pc := if value = 0 then m.pc + 1 else target },
            { m.frame s with stack := [] }) := by
    simp only [Exec.instruction, Exec.jumpIfTrue, Exec.on_bind, frame, top,
      Exec.pop_on_cons]
    split <;> simp [Exec.jump, Body.branch?, Instruction.target?, Body.resolve?, inside]
  have goes := goes_execute (c := c) (s := s) running unlimited here rfl
  rw [execute_ok jump] at goes
  simpa [advance, frame, running] using goes

end Running

/-- Straight-line code without fault is run through, by induction on the code. -/
theorem goes_block {c : Console σ} {code : List Instruction} {m : Machine} {s : σ}
    {f : Frame σ} (running : m.status = .running) (unlimited : m.limit = none)
    (here : m.body.HasAt m.pc code) (straight : code.all Instruction.isStraight = true)
    (prints : code.all Instruction.prints = true)
    (done : (Exec.block c code).on (m.frame s) = (.ok (), f))
    : Goes c code.length m s (m.advance code.length f) f.console := by
  induction code generalizing m s with
  | nil =>
      simp only [Exec.block, Exec.on_pure, Prod.mk.injEq, true_and] at done
      subst done
      exact Goes.refl c m s
  | cons i rest ih =>
      simp only [List.all_cons, Bool.and_eq_true] at straight prints
      rcases hi : (Exec.effect c i).on (m.frame s) with ⟨_ | _, middle⟩
      · simp [Exec.block, Exec.on_bind_error hi] at done
      · have first := goes_straight running unlimited here.1 straight.1 prints.1 hi
        rw [Exec.block, Exec.on_bind_ok hi] at done
        have second := ih (m := m.advance 1 middle) (s := middle.console) running unlimited
          here.2 straight.2 prints.2 done
        have both := first.trans second
        rw [List.length_cons, Nat.add_comm rest.length]
        simpa only [advance, Nat.add_assoc] using both

/-- Straight-line code with a fault stops the machine at some instruction of it. -/
theorem goes_block_fault {c : Console σ} {code : List Instruction} {m : Machine} {s : σ}
    {e : Fault} {f : Frame σ} (running : m.status = .running) (unlimited : m.limit = none)
    (here : m.body.HasAt m.pc code) (straight : code.all Instruction.isStraight = true)
    (prints : code.all Instruction.prints = true)
    (fault : (Exec.block c code).on (m.frame s) = (.error e, f))
    : ∃ (count : Nat) (last : Machine) (op : OpCode),
        0 < count ∧ Goes c count m s (last.fail f op e) f.console := by
  induction code generalizing m s with
  | nil => simp [Exec.block] at fault
  | cons i rest ih =>
      simp only [List.all_cons, Bool.and_eq_true] at straight prints
      rcases hi : (Exec.effect c i).on (m.frame s) with ⟨_ | _, middle⟩
      · rw [Exec.block, Exec.on_bind_error hi] at fault
        cases fault
        exact ⟨1, m, i.op, Nat.one_pos,
          goes_fault running unlimited here.1 straight.1 prints.1 hi⟩
      · have first := goes_straight running unlimited here.1 straight.1 prints.1 hi
        rw [Exec.block, Exec.on_bind_ok hi] at fault
        obtain ⟨count, last, op, _, second⟩ := ih (m := m.advance 1 middle) (s := middle.console)
          running unlimited here.2 straight.2 prints.2 fault
        exact ⟨1 + count, last, op, by omega, first.trans second⟩

------------------------------------------------------------------------------------------
-- ticks
------------------------------------------------------------------------------------------

/-- Ticks a number of times, whether there is progress or not. -/
def ticks (c : Console σ) : (count : Nat) → Machine → σ → Machine × σ
  | 0, m, s => (m, s)
  | count + 1, m, s =>
      let (_, m, s) := m.tick c s
      ticks c count m s

section Ticks

variable {m : Machine}

/-- Only machines that are running are changed by a tick. -/
theorem tick_of_not_running (c : Console σ) (s : σ) (still : m.status ≠ .running)
    : m.tick c s = (.rest, m, s) := by
  unfold tick
  cases status : m.status with
  | running => contradiction
  | idle | returned | failed cause => rfl

/-- What a tick can do: nothing if the machine is not running, else it fails at the limit or behind
the last instruction, or executes an instruction, and crashes if that does not print.
-/
theorem tick_cases (c : Console σ) (m : Machine) (s : σ)
    : (m.status ≠ .running ∧ m.tick c s = (.rest, m, s))
      ∨ (m.status = .running ∧ m.atLimit = true
        ∧ m.tick c s = (.rest, { m with status := .failed (.stepLimit (m.limit.getD 0)) }, s))
      ∨ (m.status = .running ∧ m.atLimit = false ∧ m.body.code[m.pc]? = none
        ∧ m.tick c s = (.rest, { m with status := .failed .pastEnd }, s))
      ∨ (∃ i, m.status = .running ∧ m.atLimit = false ∧ m.body.code[m.pc]? = some i
        ∧ i.prints = true ∧ m.tick c s = (.step, m.execute c s i))
      ∨ ∃ i, m.status = .running ∧ m.atLimit = false ∧ m.body.code[m.pc]? = some i
        ∧ i.prints = false
        ∧ m.tick c s = (.crash, (m.execute c s i).1.breakOff, (m.execute c s i).2) := by
  unfold tick
  cases m.status with
  | idle | returned | failed cause => exact .inl ⟨by simp, rfl⟩
  | running =>
      cases m.atLimit with
      | true => exact .inr (.inl ⟨rfl, rfl, rfl⟩)
      | false =>
          cases m.body.code[m.pc]? with
          | none => exact .inr (.inr (.inl ⟨rfl, rfl, rfl, rfl⟩))
          | some i =>
              cases prints : i.prints with
              | true => exact .inr (.inr (.inr (.inl ⟨i, rfl, rfl, rfl, prints, by simp [prints]⟩)))
              | false =>
                  exact .inr (.inr (.inr (.inr ⟨i, rfl, rfl, rfl, prints, by simp [prints]⟩)))

/-- What executing an instruction keeps, and that it is counted. -/
theorem execute_keeps (c : Console σ) (m : Machine) (s : σ) (i : Instruction)
    : (m.execute c s i).1.limit = m.limit ∧ (m.execute c s i).1.body = m.body
      ∧ (m.execute c s i).1.steps = m.steps + 1 := by
  rcases outcome : (Exec.instruction c m.body m.pc i).on (m.frame s) with ⟨fault | next, f⟩
  · rw [execute_error outcome]
    exact ⟨rfl, rfl, rfl⟩
  · rw [execute_ok outcome]
    exact ⟨rfl, rfl, rfl⟩

/-- All that a crash can change of a machine is that it has failed. -/
theorem breakOff_eq (m : Machine)
    : m.breakOff = { m with status := m.breakOff.status } := by
  unfold breakOff
  split <;> rfl

theorem breakOff_status (m : Machine)
    : m.breakOff.status = match m.status with
      | .failed _ => .running
      | status => status := by
  unfold breakOff
  cases status : m.status <;> simp [status]

/-- A crash records no failure. -/
theorem breakOff_error? (m : Machine) : m.breakOff.error? = none := by
  obtain ⟨_, _, _, _, _, _, _, status⟩ := m
  cases status <;> rfl

theorem tick_body (c : Console σ) (s : σ) : (m.tick c s).2.1.body = m.body := by
  rcases m.tick_cases c s with ⟨-, h⟩ | ⟨-, -, h⟩ | ⟨-, -, -, h⟩ | ⟨i, -, -, -, -, h⟩
    | ⟨i, -, -, -, -, h⟩ <;> rw [h]
  · exact (m.execute_keeps c s i).2.1
  · rw [breakOff_eq]
    exact (m.execute_keeps c s i).2.1

/-- A tick crashes exactly if it executes an instruction whose target is unset. -/
theorem tick_eq_crash_iff {c : Console σ} {s : σ}
    : (m.tick c s).1 = .crash
      ↔ m.status = .running ∧ m.atLimit = false
        ∧ ∃ i, m.body.code[m.pc]? = some i ∧ i.operand = .target .unset := by
  simp only [← Instruction.prints_eq_false_iff]
  rcases m.tick_cases c s with ⟨still, h⟩ | ⟨-, limit, h⟩ | ⟨-, -, here, h⟩
    | ⟨i, -, -, here, prints, h⟩ | ⟨i, running, limit, here, prints, h⟩ <;> rw [h]
  · simp [still]
  · simp [limit]
  · simp [here]
  · simp [here, prints]
  · simp [running, limit, here, prints]

/-- A tick that comes to rest leaves a machine that the next tick leaves alone. -/
theorem tick_of_rest {c : Console σ} {s t : σ} {next : Machine}
    (stopped : m.tick c s = (.rest, next, t))
    : next.tick c t = (.rest, next, t) := by
  rcases m.tick_cases c s with ⟨-, h⟩ | ⟨-, -, h⟩ | ⟨-, -, -, h⟩ | ⟨i, -, -, -, -, h⟩
    | ⟨i, -, -, -, -, h⟩ <;> rw [h] at stopped <;> cases stopped
  · exact h
  · rfl
  · rfl

theorem ticks_succ (c : Console σ) (count : Nat) (m : Machine) (s : σ)
    : m.ticks c (count + 1) s = (m.tick c s).2.1.ticks c count (m.tick c s).2.2 :=
  rfl

theorem ticks_add (c : Console σ) (first second : Nat) (m : Machine) (s : σ)
    : m.ticks c (first + second) s
      = (m.ticks c first s).1.ticks c second (m.ticks c first s).2 := by
  induction first generalizing m s with
  | zero => rw [Nat.zero_add]; rfl
  | succ first ih =>
      rw [Nat.succ_add]
      exact ih _ _

/-- None of the first `count` ticks crashes. -/
def Calm (c : Console σ) (count : Nat) (m : Machine) (s : σ) : Prop :=
  ∀ before < count, ((m.ticks c before s).1.tick c (m.ticks c before s).2).1 ≠ .crash

theorem calm_succ {c : Console σ} {count : Nat} {s : σ} (calm : m.Calm c (count + 1) s)
    : (m.tick c s).1 ≠ .crash ∧ (m.tick c s).2.1.Calm c count (m.tick c s).2.2 :=
  ⟨calm 0 (Nat.succ_pos count), fun before less => calm (before + 1) (Nat.succ_lt_succ less)⟩

theorem ticks_body (c : Console σ) (count : Nat) (m : Machine) (s : σ)
    : (m.ticks c count s).1.body = m.body := by
  induction count generalizing m s with
  | zero => rfl
  | succ count ih => rw [ticks_succ, ih, tick_body]

/-- Bodies of which all instructions print never crash. -/
theorem calm_of_prints (c : Console σ) (count : Nat) (s : σ)
    (prints : ∀ i ∈ m.body.code, i.prints = true)
    : m.Calm c count s := by
  intro before less crash
  obtain ⟨-, -, i, here, unset⟩ := tick_eq_crash_iff.mp crash
  rw [ticks_body] at here
  exact Instruction.prints_eq_true_iff.mp (prints i (Array.mem_of_getElem? here)) unset

/-- Nothing happens to a machine that a tick leaves alone. -/
theorem ticks_of_rest {c : Console σ} {s : σ} (rest : m.tick c s = (.rest, m, s)) (count : Nat)
    : m.ticks c count s = (m, s) := by
  induction count with
  | zero => rfl
  | succ count ih => rw [ticks, rest]; exact ih

end Ticks

end Machine
end TapeIL
