import TapeIL.Proofs.Machine.Consoles
import TapeIL.Proofs.Machine.Safety

/-! What one step may change. Instructions take what they need from the stack before they change a
local or an array, and that change is the last thing they do, so a fault changes neither; and each
instruction changes one local, one byte of one array, or nothing that was there before.
-/

namespace TapeIL

variable {σ α β : Type}

------------------------------------------------------------------------------------------
-- changes
------------------------------------------------------------------------------------------

/-- The second heap is the first one, but for one byte of one array, which is now the value modulo
256.
-/
structure Heap.StoresAt (heap after : Heap) (ref index : Nat) (value : Int32) : Prop where
  size : after.size = heap.size
  others : ∀ other ≠ ref, after[other]? = heap[other]?
  stored : ∃ (cells changed : Cells) (b : UInt8),
    heap[ref]? = some cells ∧ after[ref]? = some changed ∧ index < cells.length
    ∧ changed.bytes = cells.bytes.set index b ∧ (b.toNat : Int) = value.toInt % 256

theorem Instruction.isStraight_of_writes {i : Instruction} (h : i.op.writes = true)
    : i.isStraight = true := by
  obtain ⟨op, operand⟩ := i
  cases op with
  | ret | br | brtrue => cases h
  | _ => rfl

namespace Frame

/-- The second frame has the locals and the arrays of the first one. -/
structure Remembers (f g : Frame σ) : Prop where
  locals : g.locals = f.locals
  heap : g.heap = f.heap

/-- The second frame has the locals of the first one, and its arrays, perhaps among others. -/
structure Retains (f g : Frame σ) : Prop where
  locals : g.locals = f.locals
  heap (ref : Nat) (cells : Cells) : f.heap[ref]? = some cells → g.heap[ref]? = some cells

/-- The second frame is the first one with the top of the stack stored in a local. -/
def Sets (f : Frame σ) (slot : Nat) (g : Frame σ) : Prop :=
  g.heap = f.heap
  ∧ slot < f.locals.size
  ∧ ∃ v rest, f.stack = v :: rest ∧ g.locals = f.locals.setIfInBounds slot v

/-- What an instruction that succeeds makes of the locals and arrays of a frame. -/
def Changes (f : Frame σ) (op : OpCode) (g : Frame σ) : Prop :=
  match op with
  | .stloc0 => f.Sets 0 g
  | .stloc1 => f.Sets 1 g
  | .stloc2 => f.Sets 2 g
  | .stindI1 =>
      g.locals = f.locals
      ∧ ∃ value ref index rest, f.stack = .int value :: .element ref index :: rest
        ∧ f.heap.StoresAt g.heap ref index value
  | .stelemI1 =>
      g.locals = f.locals
      ∧ ∃ value index ref rest, f.stack = .int value :: .int index :: .array (some ref) :: rest
        ∧ 0 ≤ index.toInt ∧ f.heap.StoresAt g.heap ref index.toInt.toNat value
  | _ => f.Retains g

theorem Remembers.refl (f : Frame σ) : f.Remembers f :=
  ⟨rfl, rfl⟩

theorem Remembers.trans {f g h : Frame σ} (first : f.Remembers g) (second : g.Remembers h)
    : f.Remembers h :=
  ⟨second.locals.trans first.locals, second.heap.trans first.heap⟩

theorem Remembers.retains {f g : Frame σ} (h : f.Remembers g) : f.Retains g :=
  ⟨h.locals, fun ref _ found => (congrArg (·[ref]?) h.heap).trans found⟩

/-- All that an instruction without writes has to do is to change nothing. -/
theorem Remembers.changes {f g : Frame σ} (h : f.Remembers g) {op : OpCode}
    (quiet : op.writes = false)
    : f.Changes op g := by
  cases op with
  | stloc0 | stloc1 | stloc2 | stindI1 | stelemI1 | newarr => cases quiet
  | _ => exact h.retains

end Frame

/-- The low byte of a number is the number modulo 256. -/
theorem toNat_lowByte (value : Int32)
    : (value.toInt8.toUInt8.toNat : Int) = value.toInt % 256 := by
  have low : value.toInt8.toInt % 256 = value.toInt % 256 := by
    rw [Int32.toInt_toInt8]
    exact Int.bmod_emod
  have byte : value.toInt8.toInt = (value.toInt8.toUInt8.toNat : Int).bmod 256 :=
    BitVec.toInt_eq_toNat_bmod value.toInt8.toBitVec
  have small : (value.toInt8.toUInt8.toNat : Int) < 256 :=
    Int.ofNat_lt.mpr (UInt8.toNat_lt _)
  rw [← low, byte]
  exact (Int.bmod_emod.trans (Int.emod_eq_of_lt (Int.natCast_nonneg _) small)).symm

theorem Heap.storesAt_store {heap : Heap} {ref index : Nat} {cells : Cells}
    (found : heap[ref]? = some cells) (inside : index < cells.length) (value : Int32)
    : heap.StoresAt (heap.store ref index value.toInt8.toUInt8) ref index value where
  size := by simp [Heap.store]
  others other ne := by rw [Heap.store, Array.getElem?_modify, if_neg ne.symm]
  stored := by
    refine ⟨cells, cells.set index value.toInt8.toUInt8, _, found, ?_, inside,
      cells.bytes_set index _, toNat_lowByte value⟩
    rw [Heap.store, Array.getElem?_modify, if_pos rfl, found]
    rfl

------------------------------------------------------------------------------------------
-- computations that change no local and no array
------------------------------------------------------------------------------------------

namespace Exec

/-- A computation that changes no local and no array, whether it faults or not. -/
def Spares (x : Exec σ α) : Prop :=
  ∀ f : Frame σ, f.Remembers (x.on f).2

theorem Spares.bind {x : Exec σ α} {k : α → Exec σ β} (h : Spares x) (next : ∀ a, Spares (k a))
    : Spares (x >>= k) := by
  intro f
  have first := h f
  rw [on_bind]
  rcases outcome : x.on f with ⟨e | a, g⟩ <;> rw [outcome] at first
  · exact first
  · exact first.trans (next a g)

theorem spares_pop : Spares (pop : Exec σ Value) := by
  intro f
  obtain ⟨stack, locals, heap, s⟩ := f
  cases stack with
  | nil => exact .refl _
  | cons v rest => exact ⟨rfl, rfl⟩

theorem spares_localValue (slot : UInt8) : Spares (localValue slot : Exec σ Value) := by
  intro f
  obtain ⟨stack, locals, heap, s⟩ := f
  rw [localValue_on]
  exact .refl _

theorem spares_element (ref : Option Nat) (index : Int32)
    : Spares (element ref index : Exec σ (Nat × Nat)) := by
  intro f
  obtain ⟨stack, locals, heap, s⟩ := f
  cases ref with
  | none => exact .refl _
  | some ref =>
      rw [element_on_some]
      exact .refl _

theorem spares_consult (answer : σ → Except ConsoleError α × σ) : Spares (consult answer) := by
  intro f
  obtain ⟨stack, locals, heap, s⟩ := f
  rw [consult_on]
  exact ⟨rfl, rfl⟩

/-- Computations that change no local and no array. -/
def sparing (c : Console σ) : Discipline c c where
  rel _ _ x _ _ _ := Spares x
  permits _ := True
  declared _ := True
  stores := False
  plain _ := trivial
  pure _ _ := Frame.Remembers.refl
  throw _ := Frame.Remembers.refl
  bind := Spares.bind
  weaken h _ _ := h
  free _ h := h
  address h := h trivial
  push _ _ := ⟨rfl, rfl⟩
  pop := spares_pop
  localValue _ := spares_localValue _
  element := spares_element
  loadByte _ _ _ := ⟨rfl, rfl⟩
  write _ := spares_consult _
  readKey _ := spares_consult _
  setLocal _ _ := nofun
  storeByte _ _ _ := nofun
  allocate _ := nofun

theorem spares_instruction (c : Console σ) (body : Body) (pc : Nat) {i : Instruction}
    (quiet : i.op.writes = false)
    : Spares (instruction c body pc i) := by
  have admits : (sparing c).Admits body i :=
    ⟨by simp [quiet], fun _ => trivial, fun _ => trivial, fun _ => .inl id, fun _ => .inr trivial⟩
  exact admits.instruction pc 0

------------------------------------------------------------------------------------------
-- faults
------------------------------------------------------------------------------------------

/-- A computation that changes no local and no array if it faults. -/
def Atomic (x : Exec σ α) : Prop :=
  ∀ (f g : Frame σ) (e : Fault), x.on f = (.error e, g) → f.Remembers g

theorem Spares.atomic {x : Exec σ α} (h : Spares x) : Atomic x := by
  intro f g e fault
  have remembers := h f
  rwa [fault] at remembers

/-- Before an atomic computation only the stack and the console may change. -/
theorem Spares.bind_atomic {x : Exec σ α} {k : α → Exec σ β} (h : Spares x)
    (next : ∀ a, Atomic (k a))
    : Atomic (x >>= k) := by
  intro f g e fault
  have first := h f
  rcases outcome : x.on f with ⟨e | a, middle⟩ <;> rw [outcome] at first
  · rw [on_bind_error outcome] at fault
    cases fault
    exact first
  · rw [on_bind_ok outcome] at fault
    exact first.trans (next a middle g e fault)

/-- A computation that never faults is atomic. -/
theorem atomic_of_ok {x : Exec σ α} (ok : ∀ f, ∃ a g, x.on f = (.ok a, g)) : Atomic x := by
  intro f g e fault
  obtain ⟨a, next, done⟩ := ok f
  rw [done] at fault
  cases fault

theorem atomic_storeByte (ref index : Nat) (value : Int32)
    : Atomic (storeByte ref index value : Exec σ Unit) :=
  atomic_of_ok fun _ => ⟨_, _, rfl⟩

theorem atomic_storeLocal (slot : UInt8) : Atomic (storeLocal slot : Exec σ Unit) := by
  apply (spares_localValue slot).bind_atomic
  intro _
  apply spares_pop.bind_atomic
  intro v
  exact atomic_of_ok fun _ => ⟨_, _, rfl⟩

theorem atomic_newArray (type : TypeRef) : Atomic (newArray type : Exec σ Unit) := by
  have length : Spares (popInt : Exec σ Int32) := (sparing Console.absent).popInt (n := 0)
  have wrong (e : Fault) : Atomic (throw e : Exec σ Unit) := by
    intro f g cause fault
    cases fault
    exact .refl f
  unfold newArray
  split
  · exact wrong _
  · apply length.bind_atomic
    intro length
    split
    · exact wrong _
    · exact atomic_of_ok fun _ => ⟨_, _, rfl⟩

section Writes

variable (c : Console σ)

/-- What is stored is taken from the stack before, and nothing can fail behind the store. -/
theorem atomic_effect {i : Instruction} (writes : i.op.writes = true) : Atomic (effect c i) := by
  have value : Spares (popInt : Exec σ Int32) := (sparing c).popInt (n := 0)
  have element : Spares (popElement : Exec σ (Nat × Nat)) := (sparing c).popElement (n := 0)
  have indexed : Spares (popIndexed : Exec σ (Nat × Nat)) := (sparing c).popIndexed (n := 0)
  obtain ⟨op, operand⟩ := i
  cases op with
  | stloc0 | stloc1 | stloc2 => exact atomic_storeLocal _
  | stindI1 =>
      apply value.bind_atomic
      intro value
      apply element.bind_atomic
      intro place
      exact atomic_storeByte _ _ value
  | stelemI1 =>
      apply value.bind_atomic
      intro value
      apply indexed.bind_atomic
      intro place
      exact atomic_storeByte _ _ value
  | newarr => exact atomic_newArray _
  | _ => cases writes

/-- An instruction that writes faults where its effect does. -/
theorem atomic_instruction (body : Body) (pc : Nat) (i : Instruction)
    : Atomic (instruction c body pc i) := by
  cases writes : i.op.writes with
  | false => exact (spares_instruction c body pc writes).atomic
  | true =>
      intro f g e fault
      have straight := Instruction.isStraight_of_writes writes
      rw [instruction_straight c body pc straight, on_bind] at fault
      rcases outcome : (effect c i).on f with ⟨cause | _, middle⟩ <;> rw [outcome] at fault
      · cases fault
        exact atomic_effect c writes f _ _ outcome
      · cases fault

end Writes

------------------------------------------------------------------------------------------
-- changes of an instruction
------------------------------------------------------------------------------------------

section Inversion

variable {f g : Frame σ}

theorem pop_eq_ok {v : Value} (done : pop.on f = (.ok v, g))
    : f = { g with stack := v :: g.stack } := by
  obtain ⟨stack, locals, heap, s⟩ := f
  cases stack with
  | nil => cases done
  | cons top rest =>
      cases done
      rfl

theorem popInt_eq_ok {value : Int32} (done : popInt.on f = (.ok value, g))
    : f = { g with stack := .int value :: g.stack } := by
  obtain ⟨v, middle, taken, rest⟩ := on_bind_eq_ok done
  cases v with
  | int top =>
      cases rest
      exact pop_eq_ok taken
  | _ => cases rest

theorem popArray_eq_ok {ref : Option Nat} (done : popArray.on f = (.ok ref, g))
    : f = { g with stack := .array ref :: g.stack } := by
  obtain ⟨v, middle, taken, rest⟩ := on_bind_eq_ok done
  cases v with
  | array top =>
      cases rest
      exact pop_eq_ok taken
  | _ => cases rest

theorem popElement_eq_ok {ref index : Nat} (done : popElement.on f = (.ok (ref, index), g))
    : f = { g with stack := .element ref index :: g.stack } := by
  obtain ⟨v, middle, taken, rest⟩ := on_bind_eq_ok done
  cases v with
  | element array place =>
      cases rest
      exact pop_eq_ok taken
  | _ => cases rest

/-- An element is taken by an index that is inside of its array. -/
theorem popIndexed_eq_ok {ref index : Nat} (done : popIndexed.on f = (.ok (ref, index), g))
    : ∃ place : Int32, f = { g with stack := .int place :: .array (some ref) :: g.stack }
      ∧ 0 ≤ place.toInt ∧ index = place.toInt.toNat
      ∧ index < (g.heap.arrayOf (some ref)).length := by
  obtain ⟨place, middle, first, done⟩ := on_bind_eq_ok done
  obtain ⟨array, ⟨stack, locals, heap, s⟩, second, done⟩ := on_bind_eq_ok done
  cases array with
  | none => cases done
  | some array =>
      rw [element_on_some] at done
      split at done
      next inside =>
        obtain ⟨nonneg, bounded⟩ := inside
        have position : place.toInt.toNat < (heap.arrayOf (some array)).length := by omega
        cases done
        refine ⟨place, ?_, nonneg, rfl, position⟩
        rw [popInt_eq_ok first, popArray_eq_ok second]
      next => cases done

theorem localValue_eq_ok {slot : UInt8} {v : Value} (done : (localValue slot).on f = (.ok v, g))
    : g = f ∧ slot.toNat < f.locals.size := by
  obtain ⟨stack, locals, heap, s⟩ := f
  rw [localValue_on] at done
  cases found : locals[slot.toNat]? with
  | none =>
      rw [found] at done
      cases done
  | some old =>
      rw [found] at done
      cases done
      exact ⟨rfl, (Array.getElem?_eq_some_iff.mp found).1⟩

end Inversion

section Changes

variable {f g : Frame σ}

theorem sets_storeLocal {slot : UInt8} (done : (storeLocal slot).on f = (.ok (), g))
    : f.Sets slot.toNat g := by
  obtain ⟨old, same, here, rest⟩ := on_bind_eq_ok done
  obtain ⟨rfl, declared⟩ := localValue_eq_ok here
  obtain ⟨v, middle, taken, stored⟩ := on_bind_eq_ok rest
  cases stored
  cases pop_eq_ok taken
  exact ⟨rfl, declared, v, middle.stack, rfl, rfl⟩

/-- A new array is behind all others. -/
theorem retains_newArray {type : TypeRef} (done : (newArray type).on f = (.ok (), g))
    : f.Retains g := by
  unfold newArray at done
  split at done
  · cases done
  · obtain ⟨length, middle, taken, done⟩ := on_bind_eq_ok done
    split at done
    · cases done
    · cases done
      cases popInt_eq_ok taken
      exact ⟨rfl, fun _ _ found => Heap.getElem?_push_of_some found _⟩

/-- Whatever its operand, an instruction that writes makes the changes of its opcode. The frame has
to be sound for a store through a pointer, which is not checked again.
-/
theorem changes_effect {slots : Nat} (sound : f.Sound slots) {c : Console σ} {i : Instruction}
    (writes : i.op.writes = true) (done : (effect c i).on f = (.ok (), g))
    : f.Changes i.op g := by
  obtain ⟨op, operand⟩ := i
  cases op with
  | stloc0 | stloc1 | stloc2 => exact sets_storeLocal done
  | stindI1 =>
      obtain ⟨value, middle, first, done⟩ := on_bind_eq_ok done
      obtain ⟨⟨ref, index⟩, last, second, stored⟩ := on_bind_eq_ok done
      cases stored
      cases popInt_eq_ok first
      cases popElement_eq_ok second
      obtain ⟨cells, found, inside⟩ := sound.stack (.element ref index) (by simp)
      exact ⟨rfl, value, ref, index, _, rfl, Heap.storesAt_store found inside value⟩
  | stelemI1 =>
      obtain ⟨value, middle, first, done⟩ := on_bind_eq_ok done
      obtain ⟨⟨ref, index⟩, last, second, stored⟩ := on_bind_eq_ok done
      cases stored
      cases popInt_eq_ok first
      obtain ⟨place, rfl, positive, rfl, inside⟩ := popIndexed_eq_ok second
      have found := Heap.getElem?_of_lt_length inside
      exact ⟨rfl, value, place, ref, _, rfl, positive,
        Heap.storesAt_store found inside value⟩
  | newarr => exact retains_newArray done
  | _ => cases writes

theorem changes_instruction {slots : Nat} (sound : f.Sound slots) {c : Console σ} {body : Body}
    {pc : Nat} {i : Instruction} {next : Next}
    (done : (instruction c body pc i).on f = (.ok next, g))
    : f.Changes i.op g := by
  cases writes : i.op.writes with
  | false =>
      have remembers := spares_instruction c body pc writes f
      rw [done] at remembers
      exact remembers.changes writes
  | true =>
      have straight := Instruction.isStraight_of_writes writes
      rw [instruction_straight c body pc straight] at done
      obtain ⟨_, middle, effect, rest⟩ := on_bind_eq_ok done
      cases rest
      exact changes_effect sound writes effect

end Changes

/-- Of all instructions, only calls are made with the console. -/
theorem instruction_eq_of_ne_call {i : Instruction} (other : i.op ≠ .call) (c d : Console σ)
    (body : Body) (pc : Nat)
    : instruction c body pc i = instruction d body pc i := by
  obtain ⟨op, operand⟩ := i
  cases op with
  | call => exact absurd rfl other
  | _ => rfl

end Exec

------------------------------------------------------------------------------------------
-- machines
------------------------------------------------------------------------------------------

/-- How many instructions a step has tried that ends in the failure. -/
def Failure.attempts : Failure → Nat
  | .instruction _ _ _ => 1
  | .stepLimit _ | .pastEnd => 0

/-- Some history leads to the setup. -/
def Setup.Reachable (setup : Setup) : Prop :=
  ∃ (limit : Int) (calls : List Call), setup = (new limit).after calls

theorem Setup.Reachable.make {setup : Setup} (reached : setup.Reachable) (call : Call)
    : (setup.make call).Reachable := by
  obtain ⟨limit, calls, rfl⟩ := reached
  exact ⟨limit, calls ++ [call], by simp [after]⟩

theorem Setup.Reachable.sound {setup : Setup} (reached : setup.Reachable)
    : setup.machine.Sound := by
  obtain ⟨limit, calls, rfl⟩ := reached
  exact sound_after (Machine.sound_new limit) calls

namespace Machine

/-- The second machine is what a step that failed has left of the first one. -/
structure Survives (m : Machine) (cause : Failure) (next : Machine) : Prop where
  pc : next.pc = m.pc
  locals : next.locals = m.locals
  heap : next.heap = m.heap
  steps : next.steps = m.steps + cause.attempts

/-- The next tick of a running machine executes a call. -/
def AtCall (m : Machine) : Prop :=
  m.atLimit = false ∧ ∃ i, m.body.code[m.pc]? = some i ∧ i.op = .call

variable {m : Machine}

theorem survives_tick {c : Console σ} {s : σ} {cause : Failure} (running : m.status = .running)
    (failed : (m.tick c s).2.1.error? = some cause)
    : m.Survives cause (m.tick c s).2.1 := by
  rcases m.tick_cases c s with ⟨still, -⟩ | ⟨-, -, h⟩ | ⟨-, -, -, h⟩ | ⟨i, -, -, -, -, h⟩
    | ⟨i, -, -, -, -, h⟩
  · exact absurd running still
  · rw [h] at failed ⊢
    cases failed
    exact ⟨rfl, rfl, rfl, rfl⟩
  · rw [h] at failed ⊢
    cases failed
    exact ⟨rfl, rfl, rfl, rfl⟩
  · rw [h] at failed ⊢
    rcases outcome : (Exec.instruction c m.body m.pc i).on (m.frame s) with ⟨fault | next, f⟩
    · rw [execute_error outcome] at failed ⊢
      cases failed
      have kept := Exec.atomic_instruction c m.body m.pc i _ _ _ outcome
      exact ⟨rfl, kept.locals, kept.heap, rfl⟩
    · rw [execute_ok outcome] at failed
      cases returned : next.returned <;> simp [error?, returned] at failed
  · rw [h, breakOff_error?] at failed
    cases failed

theorem changes_tick {c : Console σ} {s : σ} (sound : m.Sound) (running : m.status = .running)
    (calm : (m.tick c s).1 ≠ .crash) (succeeded : (m.tick c s).2.1.error? = none)
    : ∃ i, m.body.code[m.pc]? = some i
      ∧ (m.frame s).Changes i.op ((m.tick c s).2.1.frame (m.tick c s).2.2) := by
  rcases m.tick_cases c s with ⟨still, -⟩ | ⟨-, -, h⟩ | ⟨-, -, -, h⟩ | ⟨i, -, -, here, -, h⟩
    | ⟨i, -, -, -, -, h⟩
  · exact absurd running still
  · rw [h] at succeeded
    cases succeeded
  · rw [h] at succeeded
    cases succeeded
  · refine ⟨i, here, ?_⟩
    rw [h] at succeeded ⊢
    rcases outcome : (Exec.instruction c m.body m.pc i).on (m.frame s) with ⟨fault | next, f⟩
    · rw [execute_error outcome] at succeeded
      cases succeeded
    · rw [execute_ok outcome]
      exact Exec.changes_instruction (sound.frame s) outcome
  · rw [h] at calm
    exact absurd rfl calm

/-- A tick that executes no call does the same on every console, and leaves the console alone: it
might as well be made without one.
-/
theorem tick_of_not_atCall (quiet : ¬m.AtCall) (c : Console σ) (s : σ)
    : m.tick c s = ((m.tick Console.absent ()).1, (m.tick Console.absent ()).2.1, s) := by
  have without : m.tick c s = m.tick Console.absent s := by
    rcases m.tick_cases c s with ⟨still, h⟩ | ⟨running, limit, h⟩ | ⟨running, limit, here, h⟩
      | ⟨i, running, limit, here, -, -⟩ | ⟨i, running, limit, here, -, -⟩
    · rw [h, tick_of_not_running _ s still]
    · simp [tick, running, limit]
    · simp [tick, running, limit, here]
    all_goals
      have other : i.op ≠ .call := fun call => quiet ⟨limit, i, here, call⟩
      simp [tick, running, limit, here, execute,
        Exec.instruction_eq_of_ne_call other c Console.absent]
  have absent : (Console.absent : Console σ).Shows (fun (_ : Unit) => s) id Console.absent :=
    ⟨fun _ _ => rfl, fun _ _ => rfl⟩
  have shown := tick_rename absent m ()
  rw [rename_id, rename_id] at shown
  rw [without, shown]

/-- Steps have footprints. Behind every history, of any bodies and consoles, a tick of a running
machine that ends with an error keeps the position, the locals and all arrays, and counts if it has
tried an instruction; a tick that succeeds, and does not crash, changes the local or the byte that
its instruction is for, and no other local and no array that was there; and only a call gets to the
console. A halted machine is no longer changed by ticks.
-/
theorem tick_footprint (setup : Setup) (reached : setup.Reachable)
    : let m := setup.machine
      let ticked := m.tick setup.console setup.state
      let next := ticked.2.1
      (m.status = .running
        → (∀ cause, next.error? = some cause → m.Survives cause next)
          ∧ (ticked.1 ≠ .crash → next.error? = none
            → ∃ i, m.body.code[m.pc]? = some i
              ∧ (m.frame setup.state).Changes i.op (next.frame ticked.2.2))
          ∧ (¬m.AtCall
            → ∀ {device : Type} (d : Console device) (u : device),
              m.tick d u = (ticked.1, next, u)))
      ∧ (m.halted = true
        → ∀ {device : Type} (d : Console device) (u : device), m.tick d u = (.rest, m, u)) := by
  intro m ticked next
  refine ⟨?_, fun halted _ d u => tick_of_halted d u halted⟩
  intro running
  refine ⟨fun cause => survives_tick running, changes_tick reached.sound running, ?_⟩
  intro quiet device d u
  rw [tick_of_not_atCall quiet d u]
  exact congrArg (fun outcome => (outcome.1, outcome.2.1, u))
    (tick_of_not_atCall quiet setup.console setup.state).symm

/-- A number too large for a byte is stored through a pointer into an array that a local and the
stack refer to as well. The store behind it finds the array in the place of a number: it has taken
the array from the stack when it fails, but the array is as it was.
-/
theorem tick_footprint_pointer
    : let storing : Body :=
        { locals := [.byteArray]
          code := #[⟨.ldcI4, .int 3⟩, ⟨.newarr, .type .byte⟩, ⟨.dup, .none⟩, ⟨.dup, .none⟩,
            ⟨.stloc0, .none⟩, ⟨.ldcI4One, .none⟩, ⟨.ldelema, .type .byte⟩, ⟨.ldcI4, .int 300⟩,
            ⟨.stindI1, .none⟩, ⟨.stindI1, .none⟩] }
      let setup := (Setup.new 0).after (.map storing :: List.replicate 8 .tick)
      let m := setup.machine
      let next := (setup.make .tick).machine
      let last := ((setup.make .tick).make .tick).machine
      (m.status = .running ∧ next.status = .running)
      ∧ m.stack = [.int 300, .element 0 1, .array (some 0)]
      ∧ m.locals = #[.array (some 0)]
      ∧ next.locals = m.locals
      ∧ m.heap.StoresAt next.heap 0 1 300
      ∧ next.Survives (.instruction 9 .stindI1 (.kindMismatch .int .array)) last := by
  intro storing setup m next last
  have running : m.status = .running ∧ next.status = .running := by decide +kernel
  have stack : m.stack = [.int 300, .element 0 1, .array (some 0)] := by decide +kernel
  have locals : m.locals = #[.array (some 0)] := by decide +kernel
  have here : m.body.code[m.pc]? = some ⟨.stindI1, .none⟩ := by decide +kernel
  have succeeded : next.error? = none := by decide +kernel
  have failed : last.error? = some (.instruction 9 .stindI1 (.kindMismatch .int .array)) := by
    decide +kernel
  have reached : setup.Reachable := ⟨0, _, rfl⟩
  clear_value setup
  have calm : (m.tick setup.console setup.state).1 ≠ .crash := by
    intro crash
    obtain ⟨-, -, i, found, unset⟩ := tick_eq_crash_iff.mp crash
    cases here.symm.trans found
    cases unset
  obtain ⟨i, found, changes⟩ := ((tick_footprint setup reached).1 running.1).2.1 calm succeeded
  cases here.symm.trans found
  obtain ⟨same, value, ref, index, rest, top, stored⟩ := changes
  cases stack.symm.trans top
  have survives := ((tick_footprint _ (reached.make .tick)).1 running.2).1 _ failed
  exact ⟨running, stack, locals, same, stored, survives⟩

end Machine
end TapeIL
