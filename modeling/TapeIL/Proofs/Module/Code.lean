import TapeIL.Proofs.IL.Body
import TapeIL.Proofs.Module.Fields
import TapeIL.Proofs.Module.Tables

/-! Byte code and back: each instruction is written where its offset says, and a branch is found
again by the offset it leads to.
-/

namespace TapeIL

------------------------------------------------------------------------------------------
-- operands
------------------------------------------------------------------------------------------

/-- The operand of an instruction as byte code can hold it: of the kind its opcode takes, with what
is missing filled in and calls by the reference `call` makes of them.
-/
def Instruction.storedOperand (call : MethodRef → MethodRef) (b : Body) (i : Instruction)
    : Operand :=
  match i.op.operandKind with
  | .none => .none
  | .int => .int (i.int?.getD 0)
  | .slot => .slot (i.slot?.getD 0)
  | .target => .target (.position ((b.branch? i).getD 0))
  | .type => .type i.typeOperand
  | .method => .method (call i.methodOperand)

def Instruction.stored (call : MethodRef → MethodRef) (b : Body) (i : Instruction) : Instruction :=
  ⟨i.op, i.storedOperand call b⟩

def Body.stored (call : MethodRef → MethodRef) (b : Body) : Body :=
  { b with code := b.code.map (Instruction.stored call b) }

section Stored

variable {call : MethodRef → MethodRef} {b : Body} {i : Instruction}

@[simp] theorem Instruction.op_stored : (i.stored call b).op = i.op :=
  rfl

/-- Whatever the operand was, the stored one prints. -/
theorem Instruction.prints_stored : (i.stored call b).prints = true := by
  unfold stored storedOperand
  split <;> rfl

theorem Instruction.int?_stored (kind : i.op.operandKind = .int)
    : (i.stored call b).int?.getD 0 = i.int?.getD 0 := by
  obtain ⟨op, operand⟩ := i
  cases op <;> first | rfl | contradiction

theorem Instruction.slot?_stored (kind : i.op.operandKind = .slot)
    : (i.stored call b).slot?.getD 0 = i.slot?.getD 0 := by
  obtain ⟨op, operand⟩ := i
  cases op <;> first | rfl | contradiction

theorem Instruction.typeOperand_stored (kind : i.op.operandKind = .type)
    : (i.stored call b).typeOperand = i.typeOperand := by
  simp [stored, storedOperand, kind, typeOperand, type?]

theorem Instruction.methodOperand_stored (kind : i.op.operandKind = .method)
    : (i.stored call b).methodOperand = call i.methodOperand := by
  simp [stored, storedOperand, kind, methodOperand, method?]

theorem Body.size_stored (call : MethodRef → MethodRef) (b : Body)
    : (b.stored call).size = b.size :=
  Array.size_map

/-- A branch to a position of the body leads to the same position in the stored body. -/
theorem Body.branch?_stored (kind : i.op.operandKind = .target)
    (inside : (b.branch? i).isSome = true)
    : (b.stored call).branch? (i.stored call b) = b.branch? i := by
  obtain ⟨target, found⟩ := Option.isSome_iff_exists.mp inside
  have operand : (i.stored call b).target? = some (.position target) := by
    simp only [Instruction.target?, Instruction.stored, Instruction.storedOperand, kind, found,
      Option.getD_some]
  have here : target < (b.stored call).size := by
    rw [size_stored]
    exact branch?_lt found
  rw [found, branch?, operand, Option.bind_some, resolve?, if_pos here]

/-- What a body does is kept in its stored form: branches lead to positions of the body, and calls
become calls that print alike.
-/
structure Body.Faithful (call : MethodRef → MethodRef) (b : Body) : Prop where
  inside : ∀ i ∈ b.code, i.op.isBranch = true → (b.branch? i).isSome = true
  alike : ∀ i ∈ b.code, ∀ ref, .member ref ∈ i.uses → (call ref).signature = ref.signature

end Stored

/-- The tables of a reader give back what the rows of a writer stand for, calls by the reference
`call` makes of them.
-/
structure Serves (t : Decode.Tables) (r : References) (call : MethodRef → MethodRef)
    (used : Use → Prop)
    : Prop where
  type : ∀ ref, used (.type ref)
    → TokenTable.typeRef.find? t.types (TokenTable.typeRef.token (r.typeRow ref)) = some ref
  member : ∀ ref, used (.member ref)
    → TokenTable.memberRef.find? t.members (TokenTable.memberRef.token (r.memberRow ref))
      = some (call ref)

section Operands

variable {t : Decode.Tables} {r : References} {call : MethodRef → MethodRef} {used : Use → Prop}
  {b : Body} {i : Instruction} {index : Nat}

/-- An operand takes as many bytes as its kind says. -/
theorem length_operand (r : References) (b : Body) (offsets : Array Nat) (index : Nat)
    (i : Instruction)
    : (Encode.operand r b offsets index i).length = i.op.operandKind.size := by
  unfold Encode.operand
  split <;> simp_all [Encode.u32, Encode.u8, Encode.displacement, Encode.typeToken,
    Encode.memberToken, OperandKind.size]

/-- The operand before branches are resolved: a branch leads to an offset. -/
def Decode.placed (call : MethodRef → MethodRef) (b : Body) (i : Instruction) : Operand ⊕ Int :=
  if i.op.isBranch then .inr (b.offsetAt ((b.branch? i).getD 0)) else .inl (i.storedOperand call b)

/-- A branch is written as the distance of its target from the instruction behind it. -/
theorem operand_branch (r : References) {target : Nat} (branch : i.op.isBranch = true)
    (found : b.branch? i = some target) (here : b.code[index]? = some i)
    : Encode.operand r b b.offsets.toArray index i
      = Encode.displacement (b.offsetAt target) (b.offsetAt (index + 1)) := by
  have kind : i.op.operandKind = .target := beq_iff_eq.mp branch
  have next : index + 1 ≤ b.size := (Array.getElem?_eq_some_iff.mp here).1
  simp only [Encode.operand, kind, found, Option.getD_some, b.getElem?_offsets next,
    b.getElem?_offsets (Nat.le_of_lt (Body.branch?_lt found))]

/-- A displacement comes back as the distance it was made from, if both ends are near enough. -/
theorem displacement_read {target next : Nat} (low : -2 ^ 31 ≤ (target : Int) - next)
    (high : (target : Int) - next < 2 ^ 31)
    : (Bytes.ofLittleEndian (Encode.displacement target next)).toUInt32.toInt32.toInt
      = (target : Int) - next := by
  rw [Encode.displacement, Bytes.ofLittleEndian_u32, Int32.toInt32_toUInt32]
  exact Int32.toInt_ofInt_of_le low high

/-- Every branch can reach its target by a displacement from the instruction behind it. -/
def Body.Near (b : Body) : Prop :=
  ∀ {index : Nat} {i : Instruction} {target : Nat},
    b.code[index]? = some i → i.op.isBranch = true → b.branch? i = some target
    → -2 ^ 31 ≤ (b.offsetAt target : Int) - b.offsetAt (index + 1)
      ∧ (b.offsetAt target : Int) - b.offsetAt (index + 1) < 2 ^ 31

/-- In short code every target is near. -/
theorem Body.near_of_short (short : b.codeSize < 2 ^ 31) : b.Near := by
  intro index i target _ _ _
  have there := b.offsetAt_le_codeSize target
  have here := b.offsetAt_le_codeSize (index + 1)
  omega

attribute [local simp] Decode.operand Decode.placed Encode.operand Instruction.storedOperand
  OpCode.isBranch

/-- A written operand is read as the stored one, a branch as the offset of its target, by cases on
the kind of the operand.
-/
theorem operand_read (serves : Serves t r call used) (uses : ∀ u ∈ i.uses, used u)
    (inside : i.op.isBranch = true → (b.branch? i).isSome = true) (near : b.Near)
    (here : b.code[index]? = some i)
    : Decode.operand t (b.offsetAt index) i.op (Encode.operand r b b.offsets.toArray index i)
      = .ok (Decode.placed call b i) := by
  unfold Instruction.uses at uses
  cases kind : i.op.operandKind with
  | none => simp [kind]
  | int => simp [kind, Bytes.ofLittleEndian_u32]
  | slot => simp [kind, Bytes.ofLittleEndian_u8]
  | target =>
      have branch : i.op.isBranch = true := by simp [kind]
      obtain ⟨target, found⟩ := Option.isSome_iff_exists.mp (inside branch)
      have written := operand_branch r branch found here
      obtain ⟨low, high⟩ := near here branch found
      have distance := displacement_read low high
      have length := length_operand r b b.offsets.toArray index i
      have behind := Body.offsetAt_succ here
      rw [written] at length
      simp only [kind, OperandKind.size, Instruction.size] at length behind
      simp only [Decode.operand, Decode.placed, OpCode.isBranch, kind, written, distance, length,
        found, beq_self_eq_true, if_true, Option.getD_some]
      refine congrArg Except.ok (congrArg Sum.inr ?_)
      omega
  | type =>
      have found := serves.type i.typeOperand (uses _ (by simp [kind]))
      simp [kind, Encode.typeToken, Bytes.ofLittleEndian_u32, found]
  | method =>
      have found := serves.member i.methodOperand (uses _ (by simp [kind]))
      simp [kind, Encode.memberToken, Bytes.ofLittleEndian_u32, found]

end Operands

------------------------------------------------------------------------------------------
-- instructions
------------------------------------------------------------------------------------------

/-- What a body needs for its code to be read back: branches to near instructions of it, a size that
fits into four bytes, and tables that serve what it uses.
-/
structure Readable (t : Decode.Tables) (r : References) (call : MethodRef → MethodRef) (b : Body)
    : Prop where
  valid : ∀ i ∈ b.code, i.op.isValid = true
  inside : ∀ i ∈ b.code, i.op.isBranch = true → (b.branch? i).isSome = true
  near : b.Near
  size : b.codeSize < 2 ^ 32
  serves : Serves t r call (· ∈ b.uses)

theorem ofByte?_code {op : OpCode} (valid : op.isValid = true)
    : OpCode.ofByte? op.info.code = some op := by
  cases op <;> first | rfl | contradiction

section Items

variable {t : Decode.Tables} {r : References} {call : MethodRef → MethodRef} {b : Body}

/-- The bytes of an instruction. -/
def Encode.instruction (r : References) (b : Body) (index : Nat) (i : Instruction) : Bytes :=
  i.op.info.code :: Encode.operand r b b.offsets.toArray index i

/-- The items of instructions laid out from `offset`. -/
def Decode.itemsOf (call : MethodRef → MethodRef) (b : Body)
    : (offset : Nat) → List Instruction → List Decode.Item
  | _, [] => []
  | offset, i :: rest =>
      { offset, op := i.op, operand := Decode.placed call b i }
        :: Decode.itemsOf call b (offset + i.size) rest

/-- Reading one instruction: its opcode, as many bytes as that takes, and then the rest. -/
theorem items_cons {op : OpCode} {offset : Nat} {bytes rest : Bytes} {operand : Operand ⊕ Int}
    {more : List Decode.Item} (valid : op.isValid = true)
    (size : bytes.length = op.operandKind.size)
    (read : Decode.operand t offset op bytes = .ok operand)
    (next : Decode.items t (offset + 1 + op.operandKind.size) rest = .ok more)
    : Decode.items t offset (op.info.code :: (bytes ++ rest))
      = .ok ({ offset, op, operand } :: more) := by
  have taken : Bytes.take? op.operandKind.size (bytes ++ rest) = some bytes := by
    rw [← size, Bytes.take?_append]
  have left : (bytes ++ rest).drop op.operandKind.size = rest := by
    rw [← size, List.drop_left]
  rw [Decode.items]
  simp only [ofByte?_code valid, taken, left, read, next]
  rfl

/-- The code from some place on is read as the items laid out from there, by induction on it. -/
theorem items_read (h : Readable t r call b) {code : List Instruction} {index : Nat}
    (here : b.HasAt index code)
    : Decode.items t (b.offsetAt index)
        ((code.zipIdx index).flatMap fun (i, index) => Encode.instruction r b index i)
      = .ok (Decode.itemsOf call b (b.offsetAt index) code) := by
  induction code generalizing index with
  | nil =>
      rw [List.zipIdx_nil, List.flatMap_nil, Decode.items]
      rfl
  | cons i rest ih =>
      obtain ⟨first, later⟩ := here
      have mem := Array.mem_of_getElem? first
      have read := operand_read h.serves (fun u => use_of_instruction mem) (h.inside i mem)
        h.near first
      have next : b.offsetAt index + 1 + i.op.operandKind.size = b.offsetAt (index + 1) := by
        rw [Body.offsetAt_succ first, Instruction.size, Nat.add_assoc]
      rw [Decode.itemsOf, ← Body.offsetAt_succ first]
      refine items_cons (h.valid i mem) (length_operand r b _ index i) read ?_
      rw [next]
      exact ih later

/-- Items laid out from an instruction on have the offsets of the instructions, by induction on the
code.
-/
theorem offsets_itemsOf (call : MethodRef → MethodRef) {code : List Instruction} {index : Nat}
    (here : b.HasAt index code)
    : (Decode.itemsOf call b (b.offsetAt index) code).map Decode.Item.offset
      = (List.range' index code.length).map b.offsetAt := by
  induction code generalizing index with
  | nil => rfl
  | cons i rest ih =>
      obtain ⟨first, later⟩ := here
      rw [Decode.itemsOf, ← Body.offsetAt_succ first, List.map_cons, ih later]
      rfl

/-- The position of an instruction is found by its offset, because offsets are distinct. -/
theorem positions_offsetAt {index : Nat} (inside : index < b.size)
    : (Std.HashMap.ofList ((List.range' 0 b.size).map b.offsetAt).zipIdx)[b.offsetAt index]?
      = some index := by
  refine Std.HashMap.getElem?_ofList_of_mem (beq_self_eq_true _) ?_ ?_
  · rw [List.pairwise_iff_getElem]
    intro first second _ inside order
    have later : first < b.size := by
      simp at inside
      omega
    simpa using Nat.ne_of_lt (Body.offsetAt_lt order later)
  · rw [List.mk_mem_zipIdx_iff_getElem?]
    simp [inside]

/-- An item is resolved to the stored instruction. -/
theorem resolve_placed (h : Readable t r call b) {i : Instruction} (mem : i ∈ b.code) (offset : Nat)
    : Decode.resolve (Std.HashMap.ofList ((List.range' 0 b.size).map b.offsetAt).zipIdx)
        { offset, op := i.op, operand := Decode.placed call b i }
      = .ok (i.stored call b) := by
  by_cases branch : i.op.isBranch = true
  · obtain ⟨target, found⟩ := Option.isSome_iff_exists.mp (h.inside i mem branch)
    have kind : i.op.operandKind = .target := by simpa [OpCode.isBranch] using branch
    have position := positions_offsetAt (Body.branch?_lt found)
    have stored : i.stored call b = ⟨i.op, .target (.position target)⟩ := by
      simp [Instruction.stored, Instruction.storedOperand, kind, found]
    have placed : Decode.placed call b i = .inr (.ofNat (b.offsetAt target)) := by
      simp [Decode.placed, branch, found]
    simp only [Decode.resolve, placed, position, stored]
  · simp [Decode.resolve, Decode.placed, branch, Instruction.stored]

/-- All items are resolved to the stored instructions, by induction on the code. -/
theorem mapM_resolve (h : Readable t r call b) {code : List Instruction}
    (mem : ∀ i ∈ code, i ∈ b.code) (offset : Nat)
    : (Decode.itemsOf call b offset code).mapM
        (Decode.resolve (Std.HashMap.ofList ((List.range' 0 b.size).map b.offsetAt).zipIdx))
      = .ok (code.map (Instruction.stored call b)) := by
  induction code generalizing offset with
  | nil => rfl
  | cons i rest ih =>
      rw [List.forall_mem_cons] at mem
      rw [Decode.itemsOf, List.mapM_cons, resolve_placed h mem.1, ih mem.2]
      rfl

theorem code_eq (r : References) (b : Body)
    : Encode.code r b
      = (b.code.toList.zipIdx 0).flatMap fun (i, index) => Encode.instruction r b index i :=
  rfl

/-- The byte code of a body is read back as the stored instructions. -/
theorem code_read (h : Readable t r call b)
    : Decode.code t (Encode.code r b) = .ok (b.code.toList.map (Instruction.stored call b)) := by
  have whole : b.HasAt 0 b.code.toList := Body.hasAt_of_toList (List.nil_append _).symm
  have items := items_read h whole
  have offsets := offsets_itemsOf call whole
  rw [show b.offsetAt 0 = 0 from rfl] at items offsets
  rw [Decode.code, code_eq, items]
  change (Decode.itemsOf call b 0 b.code.toList).mapM
    (Decode.resolve (Std.HashMap.ofList (List.map Decode.Item.offset _).zipIdx)) = _
  rw [offsets]
  exact mapM_resolve h (fun i mem => Array.mem_toList_iff.mp mem) 0

theorem length_instruction (r : References) (b : Body) (index : Nat) (i : Instruction)
    : (Encode.instruction r b index i).length = i.size := by
  rw [Encode.instruction, List.length_cons, length_operand, Instruction.size, Nat.add_comm]

/-- The bytes of instructions take what the instructions add up to, by induction on them. -/
theorem length_instructions (r : References) (b : Body) (code : List Instruction) (index : Nat)
    : ((code.zipIdx index).flatMap fun (i, index) => Encode.instruction r b index i).length
      = Body.sizes code := by
  induction code generalizing index with
  | nil => rfl
  | cons i rest ih =>
      rw [List.zipIdx_cons, List.flatMap_cons, List.length_append, length_instruction, ih]
      rfl

/-- The byte code of a body has the size that its instructions add up to. -/
theorem length_code (r : References) (b : Body) : (Encode.code r b).length = b.codeSize := by
  rw [code_eq, length_instructions, Body.codeSize_eq]

end Items

end TapeIL
