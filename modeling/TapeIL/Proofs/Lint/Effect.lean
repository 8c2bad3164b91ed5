import TapeIL.Lint.Stack
import TapeIL.Proofs.Machine.Rules

/-! Every instruction takes from the stack and leaves on it what its opcode and call signature
declare, whatever kinds of values it meets.
-/

namespace TapeIL

/-- An address of a local is one of a frame's `size` locals. -/
def Value.isWithin (size : Nat) : Value → Bool
  | .localRef slot => slot.toNat < size
  | _ => true

theorem Value.isWithin_of_isPlain {size : Nat} {v : Value} (plain : v.isPlain = true)
    : v.isWithin size = true := by
  cases v with
  | localRef slot => cases plain
  | _ => rfl

/-- The faults that the static checks rule out. -/
def Fault.isStatic : Fault → Bool
  | .underflow | .undeclaredLocal _ | .unsupported _ | .branchOutside => true
  | _ => false

namespace Lint

variable {σ α : Type}

/-- A frame with `depth` values on the stack and `size` locals, where every address of a local is
within them.
-/
structure Fits (size depth : Nat) (f : Frame σ) : Prop where
  depth : f.stack.length = depth
  locals : f.locals.size = size
  stackWithin : ∀ v ∈ f.stack, v.isWithin size = true
  localsWithin : ∀ v ∈ f.locals, v.isWithin size = true

/-- A frame that fits, and values in hand that may be put into it. -/
structure Carries (size depth : Nat) (hand : List Value) (f : Frame σ) : Prop where
  within : ∀ v ∈ hand, v.isWithin size = true
  fits : Fits size depth f

theorem Carries.weaken {size depth : Nat} {hand fewer : List Value} {f : Frame σ}
    (h : Carries size depth hand f) (subset : fewer ⊆ hand)
    : Carries size depth fewer f :=
  ⟨fun v mem => h.within v (subset mem), h.fits⟩

theorem Fits.carries {size depth : Nat} {f : Frame σ} (h : Fits size depth f)
    : Carries size depth [] f :=
  ⟨nofun, h⟩

/-- A value that is no address of another frame's local may be taken into hand. -/
theorem Fits.carries_one {size depth : Nat} {f : Frame σ} (h : Fits size depth f) {v : Value}
    (within : v.isWithin size = true)
    : Carries size depth [v] f :=
  ⟨by simpa using within, h⟩

/-- From frames with `before` values a computation comes to frames with `after` values, or to a
fault that no static check rules out.
-/
abbrev Moves (size before : Nat) (given : List Value) (x : Exec σ α) (after : Nat)
    (left : α → List Value)
    : Prop :=
  Exec.Triple (Carries size before given) x (fun a => Carries size after (left a))
    (fun e _ => e.isStatic = false)

section Primitives

variable {size depth : Nat}

theorem moves_push (v : Value)
    : Moves size depth [v] (Exec.push v : Exec σ Unit) (depth + 1) fun _ => [v] := by
  rintro f ⟨within, depth, locals, stackWithin, localsWithin⟩
  refine ⟨within, by simp [depth], locals, ?_, localsWithin⟩
  simpa using ⟨within v (by simp), stackWithin⟩

theorem moves_pop
    : Moves size (depth + 1) [] (Exec.pop : Exec σ Value) depth fun v => [v] := by
  rintro ⟨stack, slots, heap, s⟩ ⟨-, height, locals, stackWithin, localsWithin⟩
  cases stack with
  | nil => simp at height
  | cons v rest =>
      have fits : Fits size depth ⟨rest, slots, heap, s⟩ :=
        ⟨by simpa using height, locals,
          fun other mem => stackWithin other (List.mem_cons_of_mem v mem), localsWithin⟩
      exact fits.carries_one (stackWithin v List.mem_cons_self)

theorem moves_localValue {slot : UInt8} (declared : slot.toNat < size)
    : Moves size depth [] (Exec.localValue slot : Exec σ Value) depth
        fun v => [v, .localRef slot] := by
  rintro ⟨stack, locals, heap, s⟩ ⟨-, fits⟩
  have inside : slot.toNat < locals.size := fits.locals ▸ declared
  have within : locals[slot.toNat].isWithin size = true :=
    fits.localsWithin _ (Array.getElem_mem inside)
  rw [Exec.localValue_on, Array.getElem?_eq_getElem inside]
  refine ⟨?_, fits⟩
  simpa [Value.isWithin] using ⟨within, declared⟩

/-- An index and an array are taken even where the array has no such element. -/
theorem moves_element (ref : Option Nat) (index : Int32)
    : Moves size depth [.array ref] (Exec.element ref index : Exec σ (Nat × Nat)) depth
        fun place => [.element place.1 place.2] := by
  rintro ⟨stack, locals, heap, s⟩ ⟨-, fits⟩
  cases ref with
  | none => rfl
  | some ref =>
      rw [Exec.element_on_some]
      by_cases inside : 0 ≤ index.toInt ∧ index.toInt < (heap.arrayOf (some ref)).length
      · rw [if_pos inside]
        exact fits.carries_one rfl
      · rw [if_neg inside]
        rfl

/-- A change of the frame that keeps stack and locals. -/
theorem moves_modify {given : List Value} {change : Frame σ → Frame σ}
    (same : ∀ f, (change f).stack = f.stack ∧ (change f).locals = f.locals)
    : Moves size depth given (modify change) depth fun _ => [] := by
  rintro f ⟨-, depth, locals, stackWithin, localsWithin⟩
  obtain ⟨stack, slots⟩ := same f
  exact ⟨nofun, stack ▸ depth, slots ▸ locals, stack ▸ stackWithin, slots ▸ localsWithin⟩

theorem moves_consult (answer : σ → Except ConsoleError α × σ)
    : Moves size depth [] (Exec.consult answer) depth fun _ => [] := by
  rintro ⟨stack, locals, heap, s⟩ ⟨-, depth, locals, stackWithin, localsWithin⟩
  rw [Exec.consult_on]
  cases (answer s).1 with
  | ok a => exact ⟨nofun, depth, locals, stackWithin, localsWithin⟩
  | error e => rfl

/-- A stored value is one that was in hand, so addresses in locals stay within them. -/
theorem moves_setLocal (slot : UInt8) (v : Value)
    : Moves size depth [v] (Exec.setLocal slot v : Exec σ Unit) depth fun _ => [] := by
  rintro f ⟨within, depth, locals, stackWithin, localsWithin⟩
  refine ⟨nofun, depth, by simpa using locals, stackWithin, ?_⟩
  intro other mem
  rcases Array.mem_or_eq_of_mem_setIfInBounds mem with mem | rfl
  · exact localsWithin other mem
  · exact within other (by simp)

theorem moves_allocate (length : Nat)
    : Moves size depth [] (Exec.allocate length : Exec σ Unit) (depth + 1) fun _ => [] := by
  rintro f ⟨-, depth, locals, stackWithin, localsWithin⟩
  have fits : Fits size _ { f with heap := f.heap.push { length } } :=
    ⟨depth, locals, stackWithin, localsWithin⟩
  exact (moves_push (.array (some f.heap.size)) _ (fits.carries_one rfl)).fits.carries

end Primitives

/-- Computations on frames with `size` locals, by how many values they take and leave. -/
def moving (size : Nat) (c : Console σ) : Discipline c c where
  rel before given x _ after left := Moves size before given x after left
  permits e := e.isStatic = false
  declared slot := slot.toNat < size
  stores := True
  plain {e} plain := by cases e <;> first | rfl | cases plain
  pure _ _ := Exec.Triple.pure fun _ => id
  throw permitted := Exec.Triple.throw fun _ _ => permitted
  bind := Exec.Triple.bind
  weaken h more fewer := Exec.Triple.weaken h (fun _ carries => carries.weaken more)
    fun a _ carries => carries.weaken (fewer a)
  free plain h := Exec.Triple.weaken h
    (fun _ carries => carries.fits.carries_one (Value.isWithin_of_isPlain plain)) fun _ _ => id
  address h f carries :=
    h (by simpa [Value.isWithin] using carries.within _ (List.mem_singleton_self _)) f
      carries.fits.carries
  push := moves_push
  pop := moves_pop
  localValue := moves_localValue
  element := moves_element
  loadByte _ _ f carries := (moves_push _ f (carries.fits.carries_one rfl)).fits.carries
  write _ := moves_consult _
  readKey _ := moves_consult _
  setLocal slot v _ := moves_setLocal slot v
  storeByte _ _ _ _ := moves_modify fun _ => ⟨rfl, rfl⟩
  allocate length _ := moves_allocate length

/-- What the checks of single instructions promise about one. -/
structure Sound (b : Body) (i : Instruction) : Prop where
  valid : i.op.isValid = true
  kinded : i.operand.kind? = some i.op.operandKind
  unambiguous : i.op = .call → i.methodOperand.isUnambiguous = true
  declared : ∀ slot, i.slot? = some slot → slot.toNat < b.locals.length
  inside : i.op.isBranch = true → (b.branch? i).isSome = true

/-- A sound instruction has the slot that it needs. -/
theorem Sound.slot_declared {b : Body} {i : Instruction} (sound : Sound b i)
    (uses : i.op.usesLocal = true)
    : (i.slot?.getD 0).toNat < b.locals.length := by
  obtain ⟨-, kinded, -, declared, -⟩ := sound
  obtain ⟨op, operand⟩ := i
  cases op with
  | ldloc0 | ldloc1 | ldloc2 | stloc0 | stloc1 | stloc2 => exact declared _ rfl
  | ldlocaS =>
      cases operand with
      | slot index => exact declared _ rfl
      | _ => simp [Operand.kind?, OpCode.operandKind, OpCode.info] at kinded
  | _ => cases uses

theorem Sound.admits {b : Body} {i : Instruction} (sound : Sound b i) (c : Console σ)
    : (moving b.locals.length c).Admits b i where
  stores _ := trivial
  valid invalid := by simp [sound.valid] at invalid
  declared uses := sound.slot_declared uses
  called call := .inr (sound.unambiguous call)
  inside branch := .inl (sound.inside branch)

/-- A sound instruction takes and leaves what its opcode declares. -/
theorem moves_instruction (c : Console σ) {b : Body} {i : Instruction} (sound : Sound b i)
    (pc depth : Nat)
    : Moves b.locals.length (depth + i.pop) [] (Exec.instruction c b pc i) (depth + i.push)
        fun _ => [] :=
  (sound.admits c).instruction pc depth

------------------------------------------------------------------------------------------
-- where control goes
------------------------------------------------------------------------------------------

/-- What follows an instruction: behind a `ret` nothing, else one of its successors. -/
def Follows (b : Body) (pc : Nat) (i : Instruction) (next : Next) : Prop :=
  if next.returned then i.op = .ret else next.pc ∈ successors b pc i

theorem successors_straight (b : Body) (pc : Nat) {i : Instruction}
    (straight : i.isStraight = true)
    : successors b pc i = [pc + 1] := by
  unfold successors
  split <;> simp_all [Instruction.isStraight]

theorem jump_eq_ok {b : Body} {i : Instruction} {f g : Frame σ} {next : Next}
    (done : (Exec.jump b i).on f = (.ok next, g))
    : next.returned = false ∧ next.pc ∈ (b.branch? i).toList := by
  unfold Exec.jump at done
  cases target : b.branch? i with
  | none =>
      rw [target] at done
      cases done
  | some index =>
      rw [target] at done
      cases done
      exact ⟨rfl, by simp⟩

/-- An instruction that does not fault hands control on to what follows it. -/
theorem follows_of_ok {c : Console σ} {b : Body} {pc : Nat} {i : Instruction} {f g : Frame σ}
    {next : Next} (done : (Exec.instruction c b pc i).on f = (.ok next, g))
    : Follows b pc i next := by
  by_cases straight : i.isStraight = true
  · rw [Exec.instruction_straight c b pc straight] at done
    obtain ⟨_, _, -, last⟩ := Exec.on_bind_eq_ok done
    cases last
    simp [Follows, successors_straight b pc straight]
  · obtain ⟨op, operand⟩ := i
    cases op with
    | ret =>
        cases done
        rfl
    | br =>
        obtain ⟨going, mem⟩ := jump_eq_ok done
        simpa [Follows, going, successors] using mem
    | brtrue =>
        obtain ⟨v, middle, -, rest⟩ := Exec.on_bind_eq_ok done
        have jumps (jumped : (Exec.jump b ⟨.brtrue, operand⟩).on middle = (.ok next, g))
            : Follows b pc ⟨.brtrue, operand⟩ next := by
          obtain ⟨going, mem⟩ := jump_eq_ok jumped
          simpa [Follows, going, successors] using .inl (by simpa using mem)
        cases v with
        | int value =>
            dsimp only at rest
            split at rest
            · cases rest
              simp [Follows, successors]
            · exact jumps rest
        | _ => exact jumps rest
    | _ => simp [Instruction.isStraight] at straight

end Lint
end TapeIL
