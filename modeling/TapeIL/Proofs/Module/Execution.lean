import TapeIL.Proofs.Machine.Run
import TapeIL.Proofs.Module.RoundTrip

/-! Encoding keeps what bodies do. A machine reads of an instruction only what is stored of it, so
that it takes the same steps on a body and on the body that is decoded in its place.
-/

namespace TapeIL

variable {σ : Type} {call : MethodRef → MethodRef} {b : Body} {i : Instruction}

------------------------------------------------------------------------------------------
-- instructions
------------------------------------------------------------------------------------------

namespace Exec

/-- Calls that print alike do the same. -/
theorem call_of_signature (c : Console σ) {ref other : MethodRef}
    (same : other.signature = ref.signature)
    : Exec.call c other = Exec.call c ref := by
  rw [Exec.call, Exec.call, same]

/-- The effect of a stored instruction is that of the instruction, by cases on the opcode. Short
forms have their values implied, and other opcodes read an operand of their own kind or none.
-/
theorem effect_stored (c : Console σ) (b : Body)
    (alike : ∀ ref, .member ref ∈ i.uses → (call ref).signature = ref.signature)
    : effect c (i.stored call b) = effect c i := by
  obtain ⟨op, operand⟩ := i
  cases op
  case call =>
    change Exec.call c (call _) = Exec.call c _
    exact call_of_signature c (alike _ List.mem_cons_self)
  all_goals rfl

/-- A stored instruction is run in the stored body as the instruction is in the body. -/
theorem instruction_stored (c : Console σ) (faithful : b.Faithful call) (pc : Nat)
    (here : i ∈ b.code)
    : instruction c (b.stored call) pc (i.stored call b) = instruction c b pc i := by
  have jumps (branch : i.op.operandKind = .target)
      : (b.stored call).branch? (i.stored call b) = b.branch? i :=
    Body.branch?_stored branch (faithful.inside i here (beq_iff_eq.mpr branch))
  have effects := effect_stored c b (faithful.alike i here)
  unfold instruction
  rw [Instruction.op_stored]
  split
  next op => rw [jump, jump, jumps (by rw [op]; rfl)]
  next op => simp only [jumpIfTrue, jump, jumps (by rw [op]; rfl)]
  next => rfl
  next => rw [effects]

end Exec

------------------------------------------------------------------------------------------
-- machines
------------------------------------------------------------------------------------------

namespace Machine

variable {m : Machine}

/-- The machine on the stored form of its body. -/
def store (call : MethodRef → MethodRef) (m : Machine) : Machine :=
  { m with body := m.body.stored call }

/-- Executing a stored instruction does to a machine what executing the instruction does. -/
theorem execute_store (c : Console σ) (s : σ) (faithful : m.body.Faithful call)
    (here : i ∈ m.body.code)
    : (m.store call).execute c s (i.stored call m.body)
      = ((m.execute c s i).1.store call, (m.execute c s i).2) := by
  rcases outcome : (Exec.instruction c m.body m.pc i).on (m.frame s) with ⟨fault | next, f⟩
  · have again := outcome
    rw [← Exec.instruction_stored c faithful m.pc here] at again
    rw [execute_error outcome, execute_error (m := m.store call) again]
    rfl
  · have again := outcome
    rw [← Exec.instruction_stored c faithful m.pc here] at again
    rw [execute_ok outcome, execute_ok (m := m.store call) again]
    rfl

/-- A tick on the stored body does what a tick on the body does, unless that crashes. -/
theorem tick_store (c : Console σ) (s : σ) (faithful : m.body.Faithful call)
    (calm : (m.tick c s).1 ≠ .crash)
    : (m.store call).tick c s
      = ((m.tick c s).1, (m.tick c s).2.1.store call, (m.tick c s).2.2) := by
  have status : (m.store call).status = m.status := rfl
  have limit : (m.store call).atLimit = m.atLimit := rfl
  have code : (m.store call).body.code[(m.store call).pc]?
      = m.body.code[m.pc]?.map (Instruction.stored call m.body) :=
    Array.getElem?_map
  rcases m.tick_cases c s with ⟨still, h⟩ | ⟨running, reached, h⟩ | ⟨running, reached, here, h⟩
    | ⟨i, running, reached, here, -, h⟩ | ⟨i, -, -, -, -, h⟩
  · rw [h, tick_of_not_running c s (status ▸ still)]
  · rw [h, tick, status, limit, running, reached]
    rfl
  · rw [h, tick, status, limit, code, running, reached, here]
    rfl
  · rw [h, ← execute_store c s faithful (Array.mem_of_getElem? here)]
    simp [tick, status, limit, code, running, reached, here, Instruction.prints_stored]
  · exact absurd (congrArg Prod.fst h) calm

/-- Any number of ticks on the stored body does what it does on the body, by induction on it, if
none of them crashes.
-/
theorem ticks_store (c : Console σ) (s : σ) (faithful : m.body.Faithful call) {count : Nat}
    (calm : m.Calm c count s)
    : (m.store call).ticks c count s
      = ((m.ticks c count s).1.store call, (m.ticks c count s).2) := by
  induction count generalizing m s with
  | zero => rfl
  | succ count ih =>
      obtain ⟨now, later⟩ := calm_succ calm
      have next : (m.tick c s).2.1.body.Faithful call := by rwa [tick_body]
      rw [ticks, tick_store c s faithful now]
      exact ih _ next later

/-- The machines are in the same state, whatever bodies they run. -/
structure Agrees (m other : Machine) : Prop where
  pc : m.pc = other.pc
  steps : m.steps = other.steps
  status : m.status = other.status
  stack : m.stack = other.stack
  locals : m.locals = other.locals
  heap : m.heap = other.heap

end Machine

------------------------------------------------------------------------------------------
-- modules
------------------------------------------------------------------------------------------

namespace Module

variable {m : Module}

end Module
end TapeIL
