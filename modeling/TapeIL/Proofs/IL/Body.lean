import Mathlib
import TapeIL.IL.Body

/-! Positions in a body: offsets add up the sizes of instructions, branches lead to positions inside
the body, and code stands at the positions it was put at. A body is the same as itself.
-/

namespace TapeIL

/-- Only a target that is unset keeps an instruction from being printed. -/
theorem Instruction.prints_eq_false_iff {i : Instruction}
    : i.prints = false ↔ i.operand = .target .unset := by
  unfold Instruction.prints Operand.prints
  split <;> simp_all

theorem Instruction.prints_eq_true_iff {i : Instruction}
    : i.prints = true ↔ i.operand ≠ .target .unset := by
  rw [← Bool.not_eq_false, ne_eq, prints_eq_false_iff]

namespace Body

/-- The number of bytes that instructions take. -/
def sizes (code : List Instruction) : Nat :=
  (code.map Instruction.size).sum

/-- The offset of the instruction at `index`; behind the last, the size of all. -/
def offsetAt (b : Body) (index : Nat) : Nat :=
  sizes (b.code.toList.take index)

theorem sizes_append (first second : List Instruction)
    : sizes (first ++ second) = sizes first + sizes second := by
  simp [sizes]

theorem codeSize_eq (b : Body) : b.codeSize = sizes b.code.toList := by
  unfold codeSize sizes
  induction b.code.toList with
  | nil => rfl
  | cons i rest ih => simp [ih]

/-- An offset adds up the sizes of the instructions before it, by recursion on the layout. -/
theorem offsetsFrom_eq (start : Nat) (code : List Instruction)
    : offsetsFrom start code
      = (List.range (code.length + 1)).map fun n => start + sizes (code.take n) := by
  induction code generalizing start with
  | nil => simp [offsetsFrom, sizes]
  | cons i rest ih =>
      rw [offsetsFrom, ih, List.length_cons, List.range_succ_eq_map (n := rest.length + 1)]
      simp [sizes, Nat.add_assoc]

theorem offsets_eq (b : Body) : b.offsets = (List.range (b.size + 1)).map b.offsetAt := by
  rw [offsets, offsetsFrom_eq]
  simp only [Nat.zero_add]
  rfl

theorem offset_of_le (b : Body) {index : Nat} (h : index ≤ b.size)
    : b.offsets[index]? = some (b.offsetAt index) := by
  simp [offsets_eq, Nat.lt_succ_of_le h]

theorem getElem?_offsets (b : Body) {index : Nat} (h : index ≤ b.size)
    : b.offsets.toArray[index]? = some (b.offsetAt index) := by
  rw [List.getElem?_toArray, b.offset_of_le h]

/-- Every instruction is laid out at its offset. -/
theorem zip_offsets (b : Body)
    : b.code.toList.zip b.offsets
      = b.code.toList.zipIdx.map fun (i, index) => (i, b.offsetAt index) := by
  refine List.ext_getElem ?_ ?_
  · simp [offsets_eq, size]
  · intro index first second
    simp [offsets_eq]

/-- Instructions of the same sizes have the same offsets, by induction on the code. -/
theorem offsetsFrom_map {f : Instruction → Instruction} (sizes : ∀ i, (f i).size = i.size)
    (start : Nat) (code : List Instruction)
    : offsetsFrom start (code.map f) = offsetsFrom start code := by
  induction code generalizing start with
  | nil => rfl
  | cons i rest ih => rw [List.map_cons, offsetsFrom, offsetsFrom, sizes, ih]

theorem offsetAt_succ {b : Body} {index : Nat} {i : Instruction}
    (here : b.code[index]? = some i)
    : b.offsetAt (index + 1) = b.offsetAt index + i.size := by
  rw [← Array.getElem?_toList] at here
  rw [offsetAt, List.take_add_one, here, sizes_append]
  simp [sizes, offsetAt]

theorem offsetAt_le (b : Body) {first second : Nat} (order : first ≤ second)
    : b.offsetAt first ≤ b.offsetAt second := by
  have parts := List.take_append_drop first (b.code.toList.take second)
  rw [List.take_take, Nat.min_eq_left order] at parts
  rw [offsetAt, offsetAt, ← parts, sizes_append]
  exact Nat.le_add_right _ _

theorem offsetAt_le_codeSize (b : Body) (index : Nat) : b.offsetAt index ≤ b.codeSize := by
  have parts := List.take_append_drop index b.code.toList
  rw [codeSize_eq, ← parts, sizes_append]
  exact Nat.le_add_right _ _

/-- No two instructions have the same offset, because each takes at least its opcode's byte. -/
theorem offsetAt_lt {b : Body} {first second : Nat} (order : first < second)
    (inside : first < b.size)
    : b.offsetAt first < b.offsetAt second := by
  have next := offsetAt_succ (Array.getElem?_eq_getElem inside)
  have later : b.offsetAt (first + 1) ≤ b.offsetAt second := b.offsetAt_le order
  unfold Instruction.size at next
  omega

theorem resolve?_eq_some {b : Body} {place : Target} {index : Nat}
    (found : b.resolve? place = some index)
    : place = .position index ∧ index < b.size := by
  cases place with
  | outside op | unset => simp [resolve?] at found
  | position other =>
      simp only [resolve?, Option.ite_none_right_eq_some, Option.some.injEq] at found
      obtain ⟨inside, rfl⟩ := found
      exact ⟨rfl, inside⟩

/-- A target leads where it is resolved to; one that is unset is resolved to nothing. -/
theorem branch?_target (b : Body) (op : OpCode) (place : Target)
    : b.branch? ⟨op, .target place⟩ = b.resolve? place := by
  cases place <;> rfl

/-- A branch into the body has its target as its operand. -/
theorem operand_of_branch {b : Body} {i : Instruction} {target : Nat}
    (found : b.branch? i = some target)
    : i.operand = .target (.position target) := by
  obtain ⟨place, there, resolved⟩ := Option.bind_eq_some_iff.mp found
  obtain ⟨rfl, -⟩ := resolve?_eq_some resolved
  unfold Instruction.target? at there
  split at there
  · cases there
  next same =>
    cases there
    exact same
  · cases there

/-- A branch into the body prints, and so does what has an operand of its kind and is no branch. -/
theorem prints_of_kinded {b : Body} {i : Instruction}
    (kinded : i.operand.kind? = some i.op.operandKind)
    (inside : i.op.isBranch = true → (b.branch? i).isSome = true)
    : i.prints = true := by
  cases branch : i.op.isBranch with
  | true =>
      obtain ⟨target, found⟩ := Option.isSome_iff_exists.mp (inside branch)
      rw [Instruction.prints, operand_of_branch found]
      rfl
  | false =>
      obtain ⟨op, operand⟩ := i
      cases operand with
      | target place =>
          have target : op.operandKind = .target := (Option.some.inj kinded).symm
          simp [OpCode.isBranch, target] at branch
      | _ => rfl

/-- The target of a branch is a position of the body. -/
theorem branch?_lt {b : Body} {i : Instruction} {target : Nat}
    (found : b.branch? i = some target)
    : target < b.size := by
  obtain ⟨place, -, resolved⟩ := Option.bind_eq_some_iff.mp found
  exact (resolve?_eq_some resolved).2

/-- A position of the body is named by its offset. -/
theorem label_position {b : Body} {index : Nat} (inside : index < b.size)
    : b.label (.position index) = offsetLabel (b.offsetAt index) := by
  have resolved : b.resolve? (.position index) = some index := if_pos inside
  simp only [label, resolved, b.getElem?_offsets (Nat.le_of_lt inside), Option.getD_some]

/-- Where the check of targets finds nothing, every branch has its target in the body. -/
theorem branch?_isSome {b : Body} {i : Instruction} (good : b.badTarget? = none)
    (here : i ∈ b.code) (branch : i.op.isBranch = true)
    : (b.branch? i).isSome = true := by
  obtain ⟨index, found⟩ := List.mem_iff_getElem?.mp (Array.mem_toList_iff.mpr here)
  have fine : b.targetError? index i = none :=
    List.findSome?_eq_none_iff.mp good (i, index) (List.mk_mem_zipIdx_iff_getElem?.mpr found)
  rw [targetError?, if_pos branch] at fine
  cases target : i.target? with
  | none => simp [target] at fine
  | some place => simpa [target, branch?, Option.isSome_iff_ne_none] using fine

/-- The check of targets finds nothing where every branch has its target in the body. -/
theorem badTarget?_eq_none {b : Body}
    (inside : ∀ i ∈ b.code, i.op.isBranch = true → (b.branch? i).isSome = true)
    : b.badTarget? = none := by
  refine List.findSome?_eq_none_iff.mpr fun ⟨i, index⟩ listed => ?_
  have here : b.code.toList[index]? = some i := List.mk_mem_zipIdx_iff_getElem?.mp listed
  have mem : i ∈ b.code := Array.mem_toList_iff.mp (List.mem_of_getElem? here)
  change b.targetError? index i = none
  unfold targetError?
  split
  next branch =>
    have found := inside i mem branch
    unfold branch? at found
    cases target : i.target? with
    | none => simp [target] at found
    | some place => simpa [target, Option.isSome_iff_ne_none] using found
  next => rfl

/-- The given instructions stand in the body one after another, the first at `start`. -/
def HasAt (b : Body) : (start : Nat) → List Instruction → Prop
  | _, [] => True
  | start, i :: rest => b.code[start]? = some i ∧ b.HasAt (start + 1) rest

theorem hasAt_append (b : Body) (start : Nat) (first second : List Instruction)
    : b.HasAt start (first ++ second)
      ↔ b.HasAt start first ∧ b.HasAt (start + first.length) second := by
  induction first generalizing start with
  | nil => simp [HasAt]
  | cons i rest ih =>
      simp only [List.cons_append, HasAt, ih, List.length_cons, and_assoc]
      rw [Nat.add_assoc, Nat.add_comm 1]

/-- All of a body's code from some place on stands there, by induction on that code. -/
theorem hasAt_of_toList {b : Body} {before code : List Instruction}
    (h : b.code.toList = before ++ code)
    : b.HasAt before.length code := by
  induction code generalizing before with
  | nil => trivial
  | cons i rest ih =>
      refine ⟨?_, ?_⟩
      · rw [← Array.getElem?_toList, h]
        simp
      · have split : b.code.toList = (before ++ [i]) ++ rest := by simpa using h
        simpa using ih split

/-- Every instruction stands for the same as itself in its own body. -/
theorem same_self (b : Body) : b.same b = true := by
  have each (code : List Instruction)
      : (code.zip code).all (fun pair => sameInstruction b b pair.1 pair.2) = true := by
    induction code with
    | nil => rfl
    | cons i rest ih =>
        rw [List.zip_cons_cons, List.all_cons, ih]
        simp [sameInstruction]
  have code := each b.code.toList
  simp [same, code]

end Body
end TapeIL
