import TapeIL.Proofs.IL.Body
import TapeIL.Proofs.Lint.Effect
import TapeIL.Proofs.Lint.Search

/-! A body without issues runs as the checks predict: at every instruction the stack has the depth
the search found, and no failure occurs that the checks look for.
-/

namespace TapeIL

/-- The failures that the static checks rule out. -/
def Failure.isStatic : Failure → Bool
  | .stepLimit _ => false
  | .pastEnd => true
  | .instruction _ _ fault => fault.isStatic

namespace Lint

variable {σ : Type}

/-- A branch without issues leads into the body. -/
theorem branch_inside {b : Body} {i : Instruction} (clean : instructionCauses b i = [])
    (branch : i.op.isBranch = true)
    : (b.branch? i).isSome = true := by
  unfold instructionCauses at clean
  split at clean
  next =>
    have targets := (List.append_eq_nil_iff.mp clean).1
    rw [targetCauses, if_pos branch] at targets
    cases found : i.target? with
    | none => simp [found] at targets
    | some target =>
        by_cases inside : (b.resolve? target).isSome = true
        · simpa [Body.branch?, found] using inside
        · simp [found, inside] at targets
  next => simp at clean

theorem sound_of_causes {b : Body} {i : Instruction} (clean : instructionCauses b i = [])
    (kinded : i.operand.kind? = some i.op.operandKind)
    (unambiguous : i.op = .call → i.methodOperand.isUnambiguous = true)
    : Sound b i := by
  have inside := branch_inside clean
  unfold instructionCauses at clean
  split at clean
  next valid =>
    have slots := (List.append_eq_nil_iff.mp clean).2
    refine ⟨valid, kinded, unambiguous, ?_, inside⟩
    intro slot found
    by_cases declared : slot.toNat < b.locals.length
    · exact declared
    · simp [slotCauses, found, declared] at slots
  next => simp at clean

theorem Sound.prints {b : Body} {i : Instruction} (sound : Sound b i) : i.prints = true :=
  Body.prints_of_kinded sound.kinded sound.inside

/-- A body whose structure has no issues: its instructions are sound, and no successor of one is
behind the last.
-/
structure WellFormed (b : Body) : Prop where
  nonempty : 0 < b.size
  sound : ∀ {pc : Nat} {i : Instruction}, b.code[pc]? = some i → Sound b i
  inside : ∀ {pc next : Nat} {i : Instruction},
    b.code[pc]? = some i → next ∈ successors b pc i → next < b.size

/-- Without structural issues no instruction has one, and the last ends the flow of control. -/
theorem structure_clean {b : Body} (clean : structureIssues b = [])
    : (∀ i ∈ b.code, instructionCauses b i = [])
      ∧ ∃ last, b.code.back? = some last ∧ endsFlow last = true := by
  unfold structureIssues at clean
  cases back : b.code.back? with
  | none => simp [back] at clean
  | some last =>
      simp only [back, List.append_eq_nil_iff, List.flatMap_eq_nil_iff, List.map_eq_nil_iff]
        at clean
      obtain ⟨each, ends⟩ := clean
      refine ⟨?_, last, rfl, by simpa using ends⟩
      intro i mem
      obtain ⟨index, here⟩ := Array.mem_iff_getElem?.mp mem
      refine each (i, index) (List.mk_mem_zipIdx_iff_getElem?.mpr ?_)
      rwa [Array.getElem?_toList]

theorem size_pos {b : Body} (clean : structureIssues b = []) : 0 < b.size := by
  obtain ⟨-, last, back, -⟩ := structure_clean clean
  rw [Array.back?_eq_getElem?] at back
  have := (Array.getElem?_eq_some_iff.mp back).1
  unfold Body.size
  omega

/-- Where the last instruction ends the flow of control, every successor is inside the body. -/
theorem successors_inside {b : Body} {pc next : Nat} {i last : Instruction}
    (here : b.code[pc]? = some i) (back : b.code.back? = some last) (ends : endsFlow last = true)
    (mem : next ∈ successors b pc i)
    : next < b.size := by
  have inside : pc < b.size := (Array.getElem?_eq_some_iff.mp here).1
  have behind (goes : endsFlow i = false) : pc + 1 < b.size := by
    have : pc ≠ b.size - 1 := by
      rintro rfl
      rw [Array.back?_eq_getElem?] at back
      obtain rfl : last = i := by simpa [Body.size, back] using here
      simp [ends] at goes
    omega
  unfold successors at mem
  split at mem
  case h_1 => simp at mem
  case h_2 => exact Body.branch?_lt (by simpa using mem)
  case h_3 op =>
    rcases List.mem_append.mp mem with target | next
    · exact Body.branch?_lt (by simpa using target)
    · simpa [List.mem_singleton.mp next] using behind (by simp [endsFlow, op])
  case h_4 notRet notBr _ =>
    simpa [List.mem_singleton.mp mem] using behind (by simpa [endsFlow] using ⟨notRet, notBr⟩)

theorem wellFormed_of_structure {b : Body} (clean : structureIssues b = [])
    (kinded : ∀ i ∈ b.code, i.operand.kind? = some i.op.operandKind)
    (unambiguous : ∀ i ∈ b.code, i.op = .call → i.methodOperand.isUnambiguous = true)
    : WellFormed b := by
  obtain ⟨each, last, back, ends⟩ := structure_clean clean
  refine ⟨size_pos clean, ?_, fun here mem => successors_inside here back ends mem⟩
  intro pc i here
  have mem := Array.mem_of_getElem? here
  exact sound_of_causes (each i mem) (kinded i mem) (unambiguous i mem)

------------------------------------------------------------------------------------------
-- runs
------------------------------------------------------------------------------------------

/-- What holds of a machine on its way through a body: while it runs, its stack has the depth the
search found for the instruction it is at; after a `ret` its stack is empty; and it has not failed
in a way the checks rule out.
-/
structure Tracks (b : Body) (m : Machine) (s : σ) : Prop where
  body : m.body = b
  running : m.status = .running → ∃ depth, (search b).Reaches m.pc depth
    ∧ Fits b.locals.length depth (m.frame s)
  returned : m.status = .returned → m.stack = []
  failed : ∀ cause, m.status = .failed cause → cause.isStatic = false
  mapped : m.status ≠ .idle

section Steps

variable {b : Body} {c : Console σ} {m : Machine} {s : σ}

/-- One instruction keeps a machine on track: the search has closed the instruction, and the
instruction takes and leaves what it declares.
-/
theorem Tracks.execute (formed : WellFormed b) (clean : (search b).found = [])
    (h : Tracks b m s) (running : m.status = .running) {i : Instruction}
    (here : b.code[m.pc]? = some i)
    : Tracks b (m.execute c s i).1 (m.execute c s i).2 := by
  obtain ⟨size, -, closes⟩ := search_closes formed.nonempty clean
  obtain ⟨depth, reached, fits⟩ := h.running running
  obtain ⟨enough, empty, edges⟩ := closes reached i here
  obtain ⟨rest, rfl⟩ := Nat.exists_eq_add_of_le' enough
  rw [Nat.add_sub_cancel] at empty edges
  have moves := moves_instruction c (formed.sound here) m.pc rest
  rcases outcome : (Exec.instruction c m.body m.pc i).on (m.frame s) with ⟨e | next, f⟩
  · rw [Machine.execute_error outcome]
    rw [h.body] at outcome
    refine ⟨h.body, nofun, nofun, ?_, nofun⟩
    rintro _ ⟨⟩
    exact moves.error fits.carries outcome
  · rw [Machine.execute_ok outcome]
    rw [h.body] at outcome
    have left := (moves.ok fits.carries outcome).fits
    have follows := follows_of_ok outcome
    unfold Follows at follows
    cases ending : next.returned with
    | true =>
        refine ⟨h.body, by simp, fun _ => ?_, by simp, by simp⟩
        have none : f.stack.length = 0 := left.depth.trans (empty (by simpa [ending] using follows))
        exact List.eq_nil_of_length_eq_zero none
    | false =>
        have mem : next.pc ∈ successors b m.pc i := by simpa [ending] using follows
        have arrives := edges next.pc mem (size ▸ formed.inside here mem)
        exact ⟨h.body, fun _ => ⟨_, arrives, left⟩, by simp, by simp, by simp⟩

/-- One tick keeps a machine on track; the instruction it is at is always inside the body. -/
theorem Tracks.tick (formed : WellFormed b) (clean : (search b).found = []) (h : Tracks b m s)
    : Tracks b (m.tick c s).2.1 (m.tick c s).2.2 := by
  unfold Machine.tick
  split
  next running =>
    split
    · refine ⟨h.body, nofun, nofun, ?_, nofun⟩
      rintro _ ⟨⟩
      rfl
    · obtain ⟨size, -, -⟩ := search_closes formed.nonempty clean
      obtain ⟨depth, reached, -⟩ := h.running running
      have inside : m.pc < b.code.size := by
        have := (Array.getElem?_eq_some_iff.mp reached).1
        rwa [size] at this
      have here := Array.getElem?_eq_getElem inside
      have prints := (formed.sound here).prints
      simp only [h.body, here, prints, if_true]
      exact h.execute formed clean running here
  next => exact h

/-- A run keeps a machine on track, by induction on its fuel. -/
theorem Tracks.run (formed : WellFormed b) (clean : (search b).found = []) (h : Tracks b m s)
    (fuel : Nat)
    : Tracks b (m.run c fuel s).1 (m.run c fuel s).2 := by
  induction fuel generalizing m s with
  | zero => exact h
  | succ fuel ih =>
      have next := h.tick (c := c) formed clean
      rw [Machine.run_succ]
      split
      · exact ih next
      · exact next

/-- A machine that a body was just mapped to is on track: its stack is empty, and no local holds
an address.
-/
theorem tracks_map (formed : WellFormed b) (clean : (search b).found = []) (m : Machine) (s : σ)
    : Tracks b (m.map b) s := by
  obtain ⟨-, first, -⟩ := search_closes formed.nonempty clean
  have initial (type : TypeRef) : (Value.initial type).isWithin b.locals.length = true := by
    unfold Value.initial
    split
    · rfl
    · split <;> rfl
  have fits : Fits b.locals.length 0 ((m.map b).frame s) :=
    ⟨rfl, by simp [Machine.frame, Machine.map], by simp [Machine.frame, Machine.map],
      by simpa [Machine.frame, Machine.map] using fun type _ => initial type⟩
  have running : (m.map b).status = .running := rfl
  exact ⟨rfl, fun _ => ⟨0, first, fits⟩, by simp [running], by simp [running], by simp [running]⟩

end Steps

/-- A body without issues, on any console and within any step limit: in every state the machine
reaches before it halts, the stack has the depth the search found for the current instruction and
is empty at a `ret`, and the machine never fails in a way the checks rule out.
-/
theorem lint_sound {b : Body} (kinded : ∀ i ∈ b.code, i.operand.kind? = some i.op.operandKind)
    (calls : ∀ i ∈ b.code, i.op = .call → i.methodOperand.isUnambiguous = true)
    (clean : b.lint = []) (c : Console σ) (s : σ) (m : Machine) (fuel : Nat)
    : let reached := ((m.map b).run c fuel s).1
      (reached.halted = false
        → (search b).depths[reached.pc]? = some (some reached.stack.length)
          ∧ ∀ i, b.code[reached.pc]? = some i → i.op = .ret → reached.stack = [])
      ∧ ∀ cause, reached.status = .failed cause → cause.isStatic = false := by
  have structured : structureIssues b = [] := by
    unfold Body.lint at clean
    split at clean
    next none => exact none
    next some => exact absurd clean some
  have found : (search b).found = [] := by
    simpa [Body.lint, structured, stackIssues] using clean
  have formed := wellFormed_of_structure structured kinded calls
  have tracks := (tracks_map formed found m s).run (c := c) formed found fuel
  refine ⟨fun going => ?_, tracks.failed⟩
  have running : (((m.map b).run c fuel s).1).status = .running := by
    have mapped := tracks.mapped
    unfold Machine.halted at going
    split at going <;> simp_all
  obtain ⟨depth, reached, fits⟩ := tracks.running running
  obtain rfl := fits.depth
  refine ⟨reached, fun i here ret => ?_⟩
  obtain ⟨-, -, closes⟩ := search_closes formed.nonempty found
  obtain ⟨-, empty, -⟩ := closes reached i here
  have pop : i.pop = 0 := by simp [Instruction.pop, ret, OpCode.info]
  have none := empty ret
  exact List.eq_nil_of_length_eq_zero (Nat.eq_zero_of_add_eq_zero_right (by rwa [pop] at none))

/-- Reading keys until a zero one: a loop with calls and the address of a local. -/
theorem lint_sound_keys
    : let b : Body :=
        { locals := [.keyInfo]
          code := #[⟨.nop, .none⟩, ⟨.ldcI4One, .none⟩, ⟨.call, .method .consoleReadKey⟩,
            ⟨.stloc0, .none⟩, ⟨.ldlocaS, .slot 0⟩, ⟨.call, .method .keyChar⟩,
            ⟨.brtrue, .target (.position 1)⟩, ⟨.ret, .none⟩] }
      let reached := (((Machine.new 9).map b).run .session 6 { input := text "k" }).1
      b.lint = []
      ∧ reached.halted = false
      ∧ (search b).depths[reached.pc]? = some (some reached.stack.length)
      ∧ ∀ cause, reached.status = .failed cause → cause.isStatic = false := by
  intro b reached
  have clean : b.lint = [] := by decide
  have going : reached.halted = false := by decide
  have sound := lint_sound (b := b) (by decide) (by decide) clean .session
    { input := text "k" } (.new 9) 6
  exact ⟨clean, going, (sound.1 going).1, sound.2⟩

end Lint
end TapeIL
