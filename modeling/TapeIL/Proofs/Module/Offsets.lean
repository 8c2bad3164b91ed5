import TapeIL.Proofs.IL.Listing
import TapeIL.Proofs.Lint.Exactness
import TapeIL.Proofs.Module.Canonical

/-! Offsets are positions of bytes. The bytes of an instruction stand in the code of a body from its
offset up to the next, so that labels and issues name places in the code.
-/

namespace TapeIL

------------------------------------------------------------------------------------------
-- tables that grow
------------------------------------------------------------------------------------------

namespace References

variable {r s : References}

/-- The tables have all rows that others have. -/
structure KeepsRows (r s : References) : Prop where
  types : ∀ t ∈ r.typeRows, t ∈ s.typeRows ∧ s.typeRow t = r.typeRow t
  members : ∀ key ∈ r.memberRows,
    key ∈ s.memberRows ∧ s.memberRows.getD key 0 = r.memberRows.getD key 0

theorem KeepsRows.refl (r : References) : KeepsRows r r :=
  ⟨fun _ listed => ⟨listed, rfl⟩, fun _ listed => ⟨listed, rfl⟩⟩

theorem KeepsRows.trans {t : References} (h : KeepsRows r s) (g : KeepsRows s t)
    : KeepsRows r t := by
  constructor
  · intro ref listed
    obtain ⟨listed, first⟩ := h.types ref listed
    obtain ⟨listed, second⟩ := g.types ref listed
    exact ⟨listed, second.trans first⟩
  · intro key listed
    obtain ⟨listed, first⟩ := h.members key listed
    obtain ⟨listed, second⟩ := g.members key listed
    exact ⟨listed, second.trans first⟩

/-- What is new has a key of its own. -/
theorem getD_insert_of_mem {α : Type} [BEq α] [LawfulBEq α] [Hashable α] {rows : Std.HashMap α Nat}
    {key other : α} (row : Nat) (new : key ∉ rows) (listed : other ∈ rows)
    : other ∈ rows.insert key row ∧ (rows.insert key row).getD other 0 = rows.getD other 0 := by
  have differ : (key == other) = false := by
    rw [beq_eq_false_iff_ne]
    rintro rfl
    exact new listed
  refine ⟨Std.HashMap.mem_insert.mpr (.inr listed), ?_⟩
  rw [Std.HashMap.getD_insert, differ, if_neg Bool.false_ne_true]

theorem keepsRows_addType (r : References) (t : TypeRef) : KeepsRows r (r.addType t) := by
  by_cases listed : r.typeRows.contains t = true
  · rw [addType, if_pos listed]
    exact .refl r
  · rw [addType, if_neg listed]
    exact ⟨fun _ => getD_insert_of_mem _ listed, fun _ listed => ⟨listed, rfl⟩⟩

theorem keepsRows_foldl {α : Type} {add : References → α → References}
    (step : ∀ r x, KeepsRows r (add r x)) (xs : List α) (r : References)
    : KeepsRows r (xs.foldl add r) := by
  induction xs generalizing r with
  | nil => exact .refl r
  | cons x xs ih => exact (step r x).trans (ih (add r x))

theorem keepsRows_addMember (r : References) (ref : MethodRef)
    : KeepsRows r (r.addMember ref) := by
  by_cases listed : ref.signature ∈ r.memberRows
  · rw [addMember_of_listed listed]
    exact .refl r
  · have types := keepsRows_foldl keepsRows_addType ref.mentions r
    obtain ⟨-, rows⟩ := addTypes_members r ref.mentions
    rw [addMember_of_new listed]
    refine ⟨types.types, ?_⟩
    rw [rows]
    exact fun _ => getD_insert_of_mem _ listed

theorem keepsRows_addInstruction (r : References) (i : Instruction)
    : KeepsRows r (r.addInstruction i) := by
  unfold addInstruction
  split
  · exact keepsRows_addType r _
  · exact keepsRows_addMember r _
  · exact .refl r

theorem mem_addType_self (r : References) (t : TypeRef) : t ∈ (r.addType t).typeRows := by
  unfold addType
  split
  next listed => exact listed
  next => exact Std.HashMap.mem_insert_self

theorem signature_mem_addMember (r : References) (ref : MethodRef)
    : ref.signature ∈ (r.addMember ref).memberRows := by
  by_cases listed : ref.signature ∈ r.memberRows
  · rwa [addMember_of_listed listed]
  · rw [addMember_of_new listed]
    exact Std.HashMap.mem_insert_self

end References

------------------------------------------------------------------------------------------
-- writing while tables grow
------------------------------------------------------------------------------------------

namespace Encode

variable {r s : References} {b : Body} {i : Instruction} {index : Nat}

/-- An instruction has the same bytes in all tables that keep the rows it was added with. -/
theorem instruction_of_keepsRows (kept : (r.addInstruction i).KeepsRows s) (b : Body) (index : Nat)
    : instruction s b index i = instruction (r.addInstruction i) b index i := by
  unfold References.addInstruction at kept ⊢
  unfold instruction operand
  cases kind : i.op.operandKind with
  | type =>
      rw [kind] at kept
      have row := (kept.types _ (r.mem_addType_self i.typeOperand)).2
      simp only [typeToken, row]
  | method =>
      rw [kind] at kept
      have row := (kept.members _ (r.signature_mem_addMember i.methodOperand)).2
      simp only [memberToken, References.memberRow, row]
  | _ => rfl

/-- The code of instructions from `index` on, where each of them adds to the tables what it refers
to before it is written, and the tables after all of them.
-/
def adding (b : Body) : (index : Nat) → List Instruction → References → Bytes × References
  | _, [], r => ([], r)
  | index, i :: rest, r =>
      let r := r.addInstruction i
      let (bytes, last) := adding b (index + 1) rest r
      (instruction r b index i ++ bytes, last)

/-- Instructions that add to the tables one after another are written with the rows of the last
tables, by induction on them.
-/
theorem adding_eq (b : Body) (code : List Instruction) (index : Nat) (r : References)
    : adding b index code r
      = ((code.zipIdx index).flatMap fun (i, index) =>
          instruction (code.foldl References.addInstruction r) b index i,
        code.foldl References.addInstruction r) := by
  induction code generalizing index r with
  | nil => rfl
  | cons i rest ih =>
      have kept := References.keepsRows_foldl References.keepsRows_addInstruction rest
        (r.addInstruction i)
      rw [adding, ih, ← instruction_of_keepsRows kept]
      rfl

------------------------------------------------------------------------------------------
-- where the bytes of instructions are
------------------------------------------------------------------------------------------

/-- The bytes of an instruction are those of the code from its offset up to the next. -/
theorem extract_code (r : References) (here : b.code[index]? = some i)
    : (code r b).extract (b.offsetAt index) (b.offsetAt (index + 1))
      = instruction r b index i := by
  rw [List.extract, Body.offsetAt_succ here, Nat.add_sub_cancel_left, code_eq]
  rw [← Array.getElem?_toList] at here
  obtain ⟨inside, found⟩ := List.getElem?_eq_some_iff.mp here
  have length : (b.code.toList.take index).length = index :=
    List.length_take_of_le (Nat.le_of_lt inside)
  have pieces := (List.take_append_drop index b.code.toList).symm
  rw [List.drop_eq_getElem_cons inside, found] at pieces
  rw [pieces, List.zipIdx_append, List.flatMap_append,
    List.drop_left' (i := b.offsetAt index) (length_instructions r b _ 0), List.zipIdx_cons,
    List.flatMap_cons, List.take_left' (length_instruction r b _ i), length, Nat.zero_add]

/-- Bytes hold the operand of an instruction in front of `next`, as the kind of its opcode asks for:
a branch holds the distance from there to the offset of its target, and what refers to a type or to
a member holds the token of its row.
-/
def HoldsOperand (r : References) (b : Body) (i : Instruction) (next : Nat) (bytes : Bytes)
    : Prop :=
  bytes.length = i.op.operandKind.size
    ∧ match i.op.operandKind with
      | .none => True
      | .int => (Bytes.ofLittleEndian bytes).toUInt32.toInt32 = i.int?.getD 0
      | .slot => bytes = [i.slot?.getD 0]
      | .target => ∃ target place, b.branch? i = some target ∧ b.offsets[target]? = some place
          ∧ (next : Int) + (Bytes.ofLittleEndian bytes).toUInt32.toInt32.toInt = place
      | .type => (Bytes.ofLittleEndian bytes).toUInt32
          = TokenTable.typeRef.token (r.typeRow i.typeOperand)
      | .method => (Bytes.ofLittleEndian bytes).toUInt32
          = TokenTable.memberRef.token (r.memberRow i.methodOperand)

theorem holdsOperand (r : References) (inside : i.op.isBranch = true → (b.branch? i).isSome = true)
    (near : b.Near) (here : b.code[index]? = some i)
    : HoldsOperand r b i (b.offsetAt (index + 1)) (operand r b b.offsets.toArray index i) := by
  refine ⟨length_operand r b _ index i, ?_⟩
  cases kind : i.op.operandKind with
  | none => trivial
  | int => simp [operand, kind, Bytes.ofLittleEndian_u32]
  | slot => simp [operand, kind, u8, Bytes.littleEndian]
  | target =>
      have branch : i.op.isBranch = true := beq_iff_eq.mpr kind
      obtain ⟨target, found⟩ := Option.isSome_iff_exists.mp (inside branch)
      obtain ⟨low, high⟩ := near here branch found
      have place := b.offset_of_le (Nat.le_of_lt (Body.branch?_lt found))
      refine ⟨target, _, found, place, ?_⟩
      rw [operand_branch r branch found here, displacement_read low high]
      omega
  | type => simp [operand, kind, typeToken, Bytes.ofLittleEndian_u32]
  | method => simp [operand, kind, memberToken, Bytes.ofLittleEndian_u32]

/-- The instruction at `index` takes the bytes of the code from `start`, which is its offset, up to
`next`, which is the offset behind it: its opcode and then its operand.
-/
structure Occupies (r : References) (b : Body) (index : Nat) (i : Instruction) (start next : Nat)
    : Prop where
  begins : b.offsets[index]? = some start
  ends : b.offsets[index + 1]? = some next
  bytes : ∃ operand, (code r b).extract start next = i.op.info.code :: operand
    ∧ HoldsOperand r b i next operand

theorem occupies (r : References) (good : b.badTarget? = none) (short : b.codeSize < 2 ^ 31)
    (here : b.code[index]? = some i)
    : Occupies r b index i (b.offsetAt index) (b.offsetAt (index + 1)) := by
  have inside : index < b.size := (Array.getElem?_eq_some_iff.mp here).1
  have branches := Body.branch?_isSome good (Array.mem_of_getElem? here)
  have held := holdsOperand r branches (Body.near_of_short short) here
  exact ⟨b.offset_of_le (Nat.le_of_lt inside), b.offset_of_le inside, _, extract_code r here, held⟩

end Encode

------------------------------------------------------------------------------------------
-- names of places
------------------------------------------------------------------------------------------

/-- The offsets of a body are strictly increasing. -/
theorem Body.pairwise_offsets (b : Body) : b.offsets.Pairwise (· < ·) := by
  rw [b.offsets_eq, List.pairwise_map]
  refine List.pairwise_lt_range.imp_of_mem ?_
  intro first second _ before order
  rw [List.mem_range] at before
  exact offsetAt_lt order (by omega)

namespace Lint

variable {b : Body} {issue : Issue}

/-- The issue is about an instruction of the body. -/
def IsAboutCode (b : Body) (issue : Issue) : Prop :=
  ∃ index i cause, b.code[index]? = some i ∧ issue = issueAt b b.offsets.toArray index cause

theorem place_issueAt {index : Nat} {i : Instruction} (here : b.code[index]? = some i)
    (cause : Issue.Cause)
    : (issueAt b b.offsets.toArray index cause).place
      = some { index, offset := b.offsetAt index, op := i.op } := by
  have inside : index < b.size := (Array.getElem?_eq_some_iff.mp here).1
  simp [issueAt, here, b.getElem?_offsets (Nat.le_of_lt inside)]

/-- A structural issue is about an instruction: one that is wrong by itself, or the last one. -/
theorem about_of_structureIssues (listed : issue ∈ structureIssues b)
    : b.size = 0 ∧ issue.place = none ∨ IsAboutCode b issue := by
  unfold structureIssues at listed
  cases back : b.code.back? with
  | none =>
      have empty : b.size = 0 := by simpa [Body.size] using back
      simp only [back, List.mem_singleton] at listed
      exact .inl ⟨empty, congrArg Issue.place listed⟩
  | some last =>
      simp only [back] at listed
      rcases List.mem_append.mp listed with inner | falls
      · obtain ⟨⟨i, index⟩, here, mem⟩ := List.mem_flatMap.mp inner
        obtain ⟨cause, -, rfl⟩ := List.mem_map.mp mem
        rw [List.mk_mem_zipIdx_iff_getElem?, Array.getElem?_toList] at here
        exact .inr ⟨index, i, cause, here, rfl⟩
      · obtain ⟨-, rfl⟩ : ¬endsFlow last = true ∧ issue = _ := by simpa using falls
        rw [Array.back?_eq_getElem?] at back
        exact .inr ⟨_, last, _, back, rfl⟩

/-- A stack issue is about an instruction, because control stays inside a sound body. -/
theorem about_of_stackIssues (sound : structureIssues b = []) (listed : issue ∈ stackIssues b)
    : IsAboutCode b issue := by
  obtain ⟨⟨index, cause⟩, found, rfl⟩ := List.mem_map.mp listed
  have reachable := (traced_search b).found (List.mem_reverse.mp found)
  exact ⟨index, _, cause, Array.getElem?_eq_getElem (reachable.lt sound), rfl⟩

/-- Every issue of a body that is not empty is about one of its instructions. -/
theorem about_of_lint (listed : issue ∈ b.lint)
    : b.size = 0 ∧ issue.place = none ∨ IsAboutCode b issue := by
  unfold Body.lint at listed
  split at listed
  next sound => exact .inr (about_of_stackIssues sound listed)
  next => exact about_of_structureIssues listed

end Lint

namespace Encode

/-- Offsets are positions in the byte code of a body whose branches all lead into it and whose code
is short, whatever rows the tables have. They are strictly increasing, the code has the size of the
body, and the bytes between two offsets are the opcode and the operand of one instruction, a branch
holding the distance to the offset of its target. Labels tell offsets apart, and the text of the
body, its listings and its issues name instructions by their positions. Where the tables are added
to while the code is written, that is the code for the tables this comes to.
-/
theorem offsets_locate_instructions (r : References) {b : Body} (good : b.badTarget? = none)
    (short : b.codeSize < 2 ^ 31)
    : (∃ last, r.KeepsRows last ∧ adding b 0 b.code.toList r = (code last b, last))
      ∧ (code r b).length = b.codeSize
      ∧ b.offsets.length = b.size + 1
      ∧ b.offsets.Pairwise (· < ·)
      ∧ Function.Injective Body.offsetLabel
      ∧ ∃ lines : List Bytes, b.toText = lines.flatten ∧ lines.length = b.size
        ∧ (∀ (index : Nat) (i : Instruction), b.code[index]? = some i
          → ∃ start next, Occupies r b index i start next
            ∧ b.label (.position index) = Body.offsetLabel start
            ∧ lines[index]?
              = some (Body.offsetLabel start ++ text ": " ++ i.toText b.label ++ text "\n")
            ∧ ∀ name, (Listing.ofBody name b).entries[index]?
              = some
                  { offset := Body.offsetLabel start
                    op := i.op.name
                    operand := i.operand.toText b.label })
        ∧ ∀ issue ∈ b.lint,
          b.size = 0 ∧ issue.place = none
          ∨ ∃ place i next, issue.place = some place ∧ b.code[place.index]? = some i
            ∧ place.op = i.op ∧ Occupies r b place.index i place.offset next := by
  have kept := References.keepsRows_foldl References.keepsRows_addInstruction b.code.toList r
  refine ⟨⟨_, kept, adding_eq b _ 0 r⟩, length_code r b, ?_, b.pairwise_offsets,
    fun _ _ => Listing.offsetLabel_injective,
    b.code.toList.zipIdx.map fun (i, index) =>
      Body.offsetLabel (b.offsetAt index) ++ text ": " ++ i.toText b.label ++ text "\n",
    ?_, ?_, ?_, ?_⟩
  · rw [b.offsets_eq, List.length_map, List.length_range]
  · rw [Body.toText, b.zip_offsets, List.flatMap_map, List.flatMap_def]
  · simp [Body.size]
  · intro index i here
    have inside : index < b.size := (Array.getElem?_eq_some_iff.mp here).1
    have listed : b.code.toList.zipIdx[index]? = some (i, index) := by simp [here]
    refine ⟨_, _, occupies r good short here, Body.label_position inside, ?_, fun name => ?_⟩
    · rw [List.getElem?_map, listed]
      rfl
    · rw [Listing.entries_ofBody, List.getElem?_map, listed]
      rfl
  · intro issue listed
    rcases Lint.about_of_lint listed with empty | ⟨index, i, cause, here, rfl⟩
    · exact .inl empty
    · exact .inr ⟨_, i, _, Lint.place_issueAt here cause, here, rfl, occupies r good short here⟩

/-- A body with branches in both directions, and an issue about an instruction between them. -/
theorem offsets_locate_instructions_loop
    : let b : Body :=
        { code := #[
            ⟨.br, .target (.position 4)⟩, ⟨.ldcI4, .int 7⟩, ⟨.newarr, .type .byte⟩,
            ⟨.stloc0, .none⟩, ⟨.ldcI4One, .none⟩, ⟨.brtrue, .target (.position 1)⟩,
            ⟨.ret, .none⟩] }
      b.badTarget? = none ∧ b.codeSize = 23 ∧ b.offsets = [0, 5, 10, 15, 16, 17, 22, 23]
      ∧ ∀ r : References, (code r b).length = 23
        ∧ (∃ next, Occupies r b 0 ⟨.br, .target (.position 4)⟩ 0 next)
        ∧ (∃ next, Occupies r b 5 ⟨.brtrue, .target (.position 1)⟩ 17 next)
        ∧ b.lint.map Issue.place = [some { index := 3, offset := 15, op := .stloc0 }]
        ∧ ∃ next, Occupies r b 3 ⟨.stloc0, .none⟩ 15 next := by
  intro b
  have good : b.badTarget? = none := by decide
  have size : b.codeSize = 23 := by decide
  refine ⟨good, size, by decide, fun r => ?_⟩
  obtain ⟨-, length, -, -, -, lines, -, -, each, -⟩ :=
    offsets_locate_instructions r good (by rw [size]; decide)
  have there {index start : Nat} {i : Instruction} (here : b.code[index]? = some i)
      (offset : b.offsets[index]? = some start)
      : ∃ next, Occupies r b index i start next := by
    obtain ⟨first, next, occupied, -⟩ := each index i here
    obtain rfl : first = start := Option.some.inj (occupied.begins.symm.trans offset)
    exact ⟨next, occupied⟩
  exact ⟨size ▸ length, there rfl rfl, there rfl rfl, by decide, there rfl rfl⟩

end Encode
end TapeIL
