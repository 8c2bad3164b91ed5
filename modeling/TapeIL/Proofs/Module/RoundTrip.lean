import TapeIL.Proofs.Module.Stored

/-! Decoding undoes encoding. A module comes back in its stored form; one that the stored form does
not change comes back as it was.
-/

namespace TapeIL

open Decode

namespace Module

/-- The opcodes are valid, and what is written without a check of its size fits into its bytes. -/
structure Fits (m : Module) : Prop where
  valid : ∀ b ∈ m.bodies, ∀ i ∈ b.code, i.op.isValid = true
  locals : ∀ b ∈ m.bodies, b.locals.length ≤ 255
  code : ∀ b ∈ m.bodies, b.codeSize < 2 ^ 31
  params : ∀ ref ∈ m.calls, ref.params.length ≤ 255
  methods : m.bodies.length < 2 ^ 24

/-- What the bytes of the format can hold of a module: valid opcodes, short lists of locals and
parameters, byte code with near branches, and an entry row of three bytes.
-/
structure Storable (m : Module) : Prop where
  valid : ∀ b ∈ m.bodies, ∀ i ∈ b.code, i.op.isValid = true
  locals : ∀ b ∈ m.bodies, b.locals.length ≤ 255
  size : ∀ b ∈ m.bodies, b.codeSize < 2 ^ 32
  near : ∀ b ∈ m.bodies, b.Near
  params : ∀ ref ∈ m.calls, ref.params.length ≤ 255
  entry : m.entryRow < 2 ^ 24

theorem Fits.storable {m : Module} (h : m.Fits) : m.Storable where
  valid := h.valid
  locals := h.locals
  size b mem := Nat.lt_trans (h.code b mem) (by decide)
  near b mem := Body.near_of_short (h.code b mem)
  params := h.params
  entry := entryRow_lt h.methods

open Encode in
/-- A module is encoded when its branches are good and all of its parts can be written. -/
theorem encode_eq_ok_iff {m : Module} {bytes : Bytes}
    : let r := References.ofModule m
      m.encode = .ok bytes ↔ m.badBranch? = none
      ∧ ∃ name typeRefCount typeRefs memberCount members typeCount types,
          string m.name = .ok name
          ∧ count (text "type references") r.types.size = .ok typeRefCount
          ∧ sequence typeRef r.types.toList = .ok typeRefs
          ∧ count (text "member references") r.members.size = .ok memberCount
          ∧ sequence (member r) r.members.toList = .ok members
          ∧ count (text "types") m.types.length = .ok typeCount
          ∧ sequence (typeDef r) m.types = .ok types
          ∧ bytes = magic ++ (u16 formatVersion ++ (name ++ (Encode.version m.version
            ++ (m.id.toList ++ ((typeRefCount ++ typeRefs) ++ ((memberCount ++ members)
            ++ ((typeCount ++ types) ++ u32 (entryToken m)))))))) := by
  intro r
  constructor
  · intro h
    unfold Module.encode at h
    cases bad : m.badBranch? with
    | some e =>
        simp only [bad] at h
        contradiction
    | none =>
        simp only [bad] at h
        obtain ⟨name, hname, h⟩ := ok_of_bind h
        obtain ⟨typeRefCount, htypeRefCount, h⟩ := ok_of_bind h
        obtain ⟨typeRefs, htypeRefs, h⟩ := ok_of_bind h
        obtain ⟨memberCount, hmemberCount, h⟩ := ok_of_bind h
        obtain ⟨members, hmembers, h⟩ := ok_of_bind h
        obtain ⟨typeCount, htypeCount, h⟩ := ok_of_bind h
        obtain ⟨types, htypes, h⟩ := ok_of_bind h
        cases h
        refine ⟨rfl, name, typeRefCount, typeRefs, memberCount, members, typeCount, types, hname,
          htypeRefCount, htypeRefs, hmemberCount, hmembers, htypeCount, htypes, ?_⟩
        simp only [List.append_assoc]
  · rintro ⟨good, name, typeRefCount, typeRefs, memberCount, members, typeCount, types, hname,
      htypeRefCount, htypeRefs, hmemberCount, hmembers, htypeCount, htypes, rfl⟩
    simp only [r] at htypeRefCount htypeRefs hmemberCount hmembers htypes
    simp only [Module.encode, good, hname, htypeRefCount, htypeRefs, hmemberCount, hmembers,
      htypeCount, htypes, List.append_assoc]
    rfl

end Module

------------------------------------------------------------------------------------------
-- modules that can be written
------------------------------------------------------------------------------------------

theorem sequence_succeeds {α : Type} {write : α → Except EncodeError Bytes} {xs : List α}
    (each : ∀ x ∈ xs, ∃ part, write x = .ok part)
    : ∃ bytes, Encode.sequence write xs = .ok bytes := by
  have parts : ∃ parts, xs.mapM write = .ok parts := by
    induction xs with
    | nil => exact ⟨[], rfl⟩
    | cons x xs ih =>
        rw [List.forall_mem_cons] at each
        obtain ⟨part, first⟩ := each.1
        obtain ⟨parts, rest⟩ := ih each.2
        refine ⟨part :: parts, ?_⟩
        rw [List.mapM_cons, first, rest]
        rfl
  obtain ⟨parts, written⟩ := parts
  refine ⟨parts.flatten, ?_⟩
  rw [Encode.sequence, written]
  rfl

namespace Module

variable {m : Module}

/-- All lists and texts of a module are short enough to have their lengths written. -/
structure Short (m : Module) : Prop where
  name : m.name.length ≤ Encode.maxCount
  typeRefs : (References.Listing.ofModule m).types.length ≤ Encode.maxCount
  typeRef : ∀ ref ∈ (References.Listing.ofModule m).types,
    ref.ns.length ≤ Encode.maxCount ∧ ref.name.length ≤ Encode.maxCount
  members : (References.Listing.ofModule m).members.length ≤ Encode.maxCount
  member : ∀ ref ∈ (References.Listing.ofModule m).members, ref.name.length ≤ Encode.maxCount
  types : m.types.length ≤ Encode.maxCount
  type : ∀ t ∈ m.types, t.ns.length ≤ Encode.maxCount ∧ t.name.length ≤ Encode.maxCount
    ∧ t.methods.length ≤ Encode.maxCount
    ∧ ∀ method ∈ t.methods, method.name.length ≤ Encode.maxCount

/-- A module with good branches is encoded if its lists and texts are short enough. -/
theorem encode_succeeds (good : m.badBranch? = none) (short : m.Short)
    : ∃ bytes, m.encode = .ok bytes := by
  have mirrors := References.mirrors_ofModule m
  have typeCount : (References.ofModule m).types.size ≤ Encode.maxCount := by
    rw [← Array.length_toList, mirrors.types]
    exact short.typeRefs
  have memberCount : (References.ofModule m).members.size ≤ Encode.maxCount := by
    rw [← Array.length_toList, mirrors.members]
    exact short.members
  obtain ⟨typeRefs, htypeRefs⟩
      : ∃ part, Encode.sequence Encode.typeRef (References.ofModule m).types.toList = .ok part := by
    refine sequence_succeeds fun ref listed => ?_
    obtain ⟨ns, name⟩ := short.typeRef ref (mirrors.types ▸ listed)
    rw [Encode.typeRef, Encode.string, Encode.string, if_pos ns, if_pos name]
    exact ⟨_, rfl⟩
  obtain ⟨members, hmembers⟩
      : ∃ part, Encode.sequence (Encode.member (References.ofModule m))
          (References.ofModule m).members.toList = .ok part := by
    refine sequence_succeeds fun ref listed => ?_
    rw [Encode.member, Encode.string, if_pos (short.member ref (mirrors.members ▸ listed))]
    exact ⟨_, rfl⟩
  obtain ⟨types, htypes⟩
      : ∃ part, Encode.sequence (Encode.typeDef (References.ofModule m)) m.types = .ok part := by
    refine sequence_succeeds fun t listed => ?_
    obtain ⟨ns, name, few, each⟩ := short.type t listed
    obtain ⟨methods, hmethods⟩
        : ∃ part, Encode.sequence (Encode.method (References.ofModule m)) t.methods = .ok part := by
      refine sequence_succeeds fun x inside => ?_
      rw [Encode.method, Encode.string, if_pos (each x inside)]
      exact ⟨_, rfl⟩
    rw [Encode.typeDef, Encode.string, Encode.string, Encode.count, if_pos ns, if_pos name,
      if_pos few, hmethods]
    exact ⟨_, rfl⟩
  exact ⟨_, encode_eq_ok_iff.mpr ⟨good, _, _, typeRefs, _, members, _, types, if_pos short.name,
    if_pos typeCount, htypeRefs, if_pos memberCount, hmembers, if_pos short.types, htypes, rfl⟩⟩

end Module

------------------------------------------------------------------------------------------
-- fields of a module
------------------------------------------------------------------------------------------

theorem reads_version (v : Version) : Reads version (Encode.version v) v := by
  simp only [Encode.version, List.append_assoc]
  exact (reads_u16 _).bind ((reads_u16 _).bind ((reads_u16 _).bind (reads_u16 _).map))

theorem ofBytes_toList (id : ModuleId) : ModuleId.ofBytes id.toList = id := by
  ext i inside
  simp [ModuleId.ofBytes]

theorem reads_lift {α : Type} (a : α)
    : Reads (liftM (Except.ok a : Except DecodeError α) : Decoder α) [] a :=
  fun _ _ => rfl

namespace Module

variable {m : Module}

/-- The tables that are read for a module give back what it uses, calls as the tables have them. -/
theorem serves_tables (types : (References.ofModule m).types.size < 2 ^ 24)
    (members : (References.ofModule m).members.size < 2 ^ 24)
    : Serves
        { types := (References.ofModule m).types
          members := (References.ofModule m).members.map MethodRef.filled }
        (References.ofModule m) (References.ofModule m).call (· ∈ m.uses) := by
  have lists := References.lists_ofModule m
  refine ⟨fun ref uses => ?_, fun ref uses => ?_⟩
  · obtain ⟨k, row, found⟩ := lists.row_of_type uses
    rw [row]
    exact find?_token .typeRef types found
  · obtain ⟨k, other, row, found, -, -⟩ := lists.row_of_member uses
    rw [row, References.call_of_row row found]
    exact find?_token .memberRef (by simpa using members) (by simp [found])

theorem mem_bodies {t : TypeDef} (ht : t ∈ m.types) {method : MethodDef}
    (hmethod : method ∈ t.methods)
    : method.body ∈ m.bodies :=
  List.mem_flatMap.mpr ⟨t, ht, List.mem_map_of_mem hmethod⟩

/-- Without a bad branch in the module, all branches of its bodies lead to positions in them. -/
theorem branches_inside (good : m.badBranch? = none) {b : Body} (mem : b ∈ m.bodies)
    {i : Instruction} (here : i ∈ b.code) (branch : i.op.isBranch = true)
    : (b.branch? i).isSome = true := by
  obtain ⟨t, ht, mem⟩ := List.mem_flatMap.mp mem
  obtain ⟨method, hmethod, rfl⟩ := List.mem_map.mp mem
  have listed : (t.methodName method, method) ∈ m.methods :=
    List.mem_flatMap.mpr ⟨t, ht, List.mem_map.mpr ⟨method, hmethod, rfl⟩⟩
  have fine := List.findSome?_eq_none_iff.mp good _ listed
  simp only [Option.map_eq_none_iff] at fine
  exact Body.branch?_isSome fine here branch

theorem uses_of_body {b : Body} (mem : b ∈ m.bodies) {u : Use} (use : u ∈ b.uses)
    : u ∈ m.uses := by
  obtain ⟨type, ht, mem⟩ := List.mem_flatMap.mp mem
  obtain ⟨method, hmethod, rfl⟩ := List.mem_map.mp mem
  refine List.mem_flatMap.mpr ⟨type, ht, List.mem_cons_of_mem _ ?_⟩
  exact List.mem_flatMap.mpr ⟨method, hmethod, use⟩

/-- The reference that the tables of a module have for one of its calls prints as the call does. -/
theorem signature_call_ofModule {ref : MethodRef} (use : .member ref ∈ m.uses)
    : ((References.ofModule m).call ref).signature = ref.signature :=
  (References.lists_ofModule m).signature_call ((References.lists_ofModule m).members ref use)

/-- The bodies of a module without a bad branch are stored with the references its tables have. -/
theorem faithful_bodies (good : m.badBranch? = none) {b : Body} (mem : b ∈ m.bodies)
    : b.Faithful (References.ofModule m).call :=
  ⟨fun _ here => branches_inside good mem here,
    fun _ here _ use => signature_call_ofModule (uses_of_body mem (use_of_instruction here use))⟩

/-- The code of every body of a module can be read back with tables that serve the module. -/
theorem readable_bodies {t : Tables} {call : MethodRef → MethodRef} (fits : m.Storable)
    (good : m.badBranch? = none)
    (serves : Serves t (References.ofModule m) call (· ∈ m.uses)) {b : Body} (mem : b ∈ m.bodies)
    : Readable t (References.ofModule m) call b := by
  exact ⟨fits.valid b mem, fun i here => branches_inside good mem here, fits.near b mem,
    fits.size b mem, fun ref use => serves.type ref (uses_of_body mem use),
    fun ref use => serves.member ref (uses_of_body mem use)⟩

/-- The types a member mentions are found in the table of types, if that is not too long. -/
theorem find?_mentions (few : (References.ofModule m).types.size < 2 ^ 24) {ref : MethodRef}
    (listed : ref ∈ (References.ofModule m).members) {type : TypeRef} (mem : type ∈ ref.mentions)
    : TokenTable.typeRef.find? (References.ofModule m).types
        (TokenTable.typeRef.token ((References.ofModule m).typeRow type)) = some type := by
  have lists := References.lists_ofModule m
  obtain ⟨k, row, found⟩ := lists.typeRow type (lists.mentioned ref listed type mem)
  rw [row]
  exact find?_token .typeRef few found

/-- Every type of a module is read in its stored form. -/
theorem reads_type {t : Tables} {call : MethodRef → MethodRef} (fits : m.Storable)
    (good : m.badBranch? = none)
    (serves : Serves t (References.ofModule m) call (· ∈ m.uses)) {type : TypeDef}
    (mem : type ∈ m.types) {part : Bytes}
    (ok : Encode.typeDef (References.ofModule m) type = .ok part)
    : Reads (typeDef t) part (type.stored call) := by
  refine reads_typeDef (reads_typeToken (serves.type type.base ?_)) ?_ ok
  · exact List.mem_flatMap.mpr ⟨type, mem, List.mem_cons_self⟩
  · intro method hmethod bytes written
    have body := mem_bodies mem hmethod
    exact reads_method (readable_bodies fits good serves body) (fits.locals _ body) written

/-- All that follows the magic bytes is read as the stored module. -/
theorem reads_contents {bytes : Bytes} (fits : m.Storable) (h : m.encode = .ok bytes)
    : ∃ rest, bytes = Encode.magic ++ rest ∧ Reads contents rest m.stored := by
  obtain ⟨good, name, typeRefCount, typeRefs, memberCount, members, typeCount, types, hname,
    htypeRefCount, htypeRefs, hmemberCount, hmembers, htypeCount, htypes, rfl⟩ :=
    encode_eq_ok_iff.mp h
  have few {what first : Bytes} {n : Nat} (ok : Encode.count what n = .ok first) : n < 2 ^ 24 :=
    Nat.lt_of_le_of_lt (count_eq_ok ok).1 (by decide)
  have lists := References.lists_ofModule m
  have typeTable : Reads (do times (← u16).toNat typeRef) (typeRefCount ++ typeRefs)
      (References.ofModule m).types.toList := by
    rw [← List.map_id (References.ofModule m).types.toList]
    exact reads_counted htypeRefCount htypeRefs fun ref _ part ok => @reads_typeRef ref part ok
  have memberTable
      : Reads (do times (← u16).toNat (member { types := (References.ofModule m).types }))
          (memberCount ++ members) ((References.ofModule m).members.toList.map .filled) := by
    refine reads_counted hmemberCount hmembers fun ref mem part ok => ?_
    have listed := Array.mem_toList_iff.mp mem
    exact reads_member (fits.params ref (mem_calls.mpr (lists.known ref listed)))
      (fun type mentioned => find?_mentions (few htypeRefCount) listed mentioned) ok
  have typeDefs := reads_counted htypeCount htypes fun type mem part ok =>
    reads_type fits good (serves_tables (few htypeRefCount) (few hmemberCount)) mem ok
  refine ⟨_, rfl, (reads_u16 _).bind ?_⟩
  simp only [ne_eq, not_true_eq_false, if_false, located, fields, bind_assoc, pure_bind]
  have id : Reads (take 16) m.id.toList m.id.toList := by
    simpa using reads_take m.id.toList
  refine (reads_string hname).bind ((reads_version m.version).bind (id.bind ?_))
  rw [← bind_assoc]
  refine typeTable.bind ?_
  simp only [Array.toArray_toList]
  rw [← bind_assoc]
  refine memberTable.bind ?_
  simp only [← Array.toList_map, Array.toArray_toList]
  rw [← bind_assoc]
  refine typeDefs.bind ((reads_u32 _).finish ?_)
  rw [entry_read (References.ofModule m).call fits.entry, ofBytes_toList]
  exact (reads_lift m.storedEntry).finish (Reads.pure m.stored)

/-- An encoded module is read in its stored form, to its last byte. -/
theorem decodeRest_encode {bytes : Bytes} (fits : m.Storable) (h : m.encode = .ok bytes)
    : decodeRest bytes = .ok (m.stored, { rest := [], position := bytes.length }) := by
  obtain ⟨rest, rfl, read⟩ := reads_contents fits h
  have run := read [] Encode.magic.length
  rw [List.append_nil] at run
  rw [decodeRest, Bytes.after?_append, List.length_append]
  exact run

theorem decode_eq_stored {bytes : Bytes} (fits : m.Storable) (h : m.encode = .ok bytes)
    : decode bytes = .ok m.stored := by
  rw [decode, decodeRest_encode fits h]
  rfl

end Module

------------------------------------------------------------------------------------------
-- modules that are in their stored form
------------------------------------------------------------------------------------------

theorem eq_of_kind_int {op : OpCode} (kind : op.operandKind = .int) : op = .ldcI4 := by
  cases op <;> first | rfl | contradiction

theorem eq_of_kind_slot {op : OpCode} (kind : op.operandKind = .slot) : op = .ldlocaS := by
  cases op <;> first | rfl | contradiction

/-- An instruction with an operand of its opcode's kind is stored as it is, by cases on the
operand.
-/
theorem stored_instruction {call : MethodRef → MethodRef} {b : Body} {i : Instruction}
    (kinded : i.operand.kind? = some i.op.operandKind)
    (inside : i.op.isBranch = true → (b.branch? i).isSome = true)
    (same : ∀ u ∈ i.uses, ∀ ref, u = .member ref → call ref = ref)
    : i.stored call b = i := by
  obtain ⟨op, operand⟩ := i
  unfold Instruction.stored Instruction.storedOperand
  cases operand with
  | words content => simp [Operand.kind?] at kinded
  | none =>
      have kind : op.operandKind = .none := Option.some.inj kinded.symm
      simp [kind]
  | int value =>
      have kind : op.operandKind = .int := Option.some.inj kinded.symm
      obtain rfl := eq_of_kind_int kind
      rfl
  | slot index =>
      have kind : op.operandKind = .slot := Option.some.inj kinded.symm
      obtain rfl := eq_of_kind_slot kind
      rfl
  | target place =>
      have kind : op.operandKind = .target := Option.some.inj kinded.symm
      have leads := inside (by simp [OpCode.isBranch, kind])
      obtain ⟨index, found⟩ := Option.isSome_iff_exists.mp leads
      cases Body.operand_of_branch found
      simp [kind, found]
  | type ref =>
      have kind : op.operandKind = .type := Option.some.inj kinded.symm
      simp [kind, Instruction.typeOperand, Instruction.type?]
  | method ref =>
      have kind : op.operandKind = .method := Option.some.inj kinded.symm
      have call := same (.member ref)
        (by simp [Instruction.uses, kind, Instruction.methodOperand, Instruction.method?]) ref rfl
      simp [kind, Instruction.methodOperand, Instruction.method?, call]

namespace Module

variable {m : Module}

/-- Where calls that print alike are the same, the tables have every call as it is. -/
theorem call_of_distinct (returns : ∀ ref ∈ m.calls, ref.ret.isUnset = false)
    (distinct : ∀ ref ∈ m.calls, ∀ other ∈ m.calls,
      ref.signature = other.signature → ref = other)
    {ref : MethodRef} (mem : ref ∈ m.calls)
    : (References.ofModule m).call ref = ref := by
  obtain ⟨k, other, row, found, signature, used⟩ :=
    (References.lists_ofModule m).row_of_member (mem_calls.mp mem)
  obtain rfl := distinct other (mem_calls.mpr used) ref mem signature
  have returned : other.returned = other.ret := by simp [MethodRef.returned, returns other mem]
  rw [References.call_of_row row found, MethodRef.filled, returned]

/-- A module with operands of the kinds their opcodes take, whose calls the tables have as they
are, is stored as it is.
-/
theorem stored_of_kinded (good : m.badBranch? = none)
    (kinded : ∀ b ∈ m.bodies, ∀ i ∈ b.code, i.operand.kind? = some i.op.operandKind)
    (same : ∀ ref ∈ m.calls, (References.ofModule m).call ref = ref)
    : m.stored = { m with entry := m.storedEntry } := by
  have bodies : ∀ b ∈ m.bodies, b.stored (References.ofModule m).call = b := by
    intro b mem
    have code : b.code.map (Instruction.stored (References.ofModule m).call b)
        = b.code.map fun i => i := by
      refine Array.map_congr_left fun i here => ?_
      refine stored_instruction (kinded b mem i here) (branches_inside good mem here) ?_
      rintro u use ref rfl
      exact same ref (mem_calls.mpr (uses_of_body mem (use_of_instruction here use)))
    rw [Body.stored, code, Array.map_id']
  have types : m.types.map (TypeDef.stored (References.ofModule m).call)
      = m.types.map fun t => t := by
    refine List.map_congr_left fun t ht => ?_
    have methods : t.methods.map (MethodDef.stored (References.ofModule m).call)
        = t.methods.map fun method => method := by
      refine List.map_congr_left fun method hmethod => ?_
      rw [MethodDef.stored, bodies _ (mem_bodies ht hmethod)]
    rw [TypeDef.stored, methods, List.map_id']
  rw [stored, types, List.map_id']

/-- Decoding an encoded module succeeds, reads every byte, and gives the module back: all of it but
for an entry that is in no type, which is none. The module has to fit the bytes of the format, its
operands have to be of the kinds their opcodes take, and its calls have to be told apart by their
signatures and say what they return.
-/
theorem decode_encode {bytes : Bytes} (fits : m.Fits)
    (kinded : ∀ b ∈ m.bodies, ∀ i ∈ b.code, i.operand.kind? = some i.op.operandKind)
    (returns : ∀ ref ∈ m.calls, ref.ret.isUnset = false)
    (distinct : ∀ ref ∈ m.calls, ∀ other ∈ m.calls,
      ref.signature = other.signature → ref = other)
    (h : m.encode = .ok bytes)
    : decode bytes = .ok { m with entry := m.storedEntry }
      ∧ decodeRest bytes
        = .ok ({ m with entry := m.storedEntry }, { rest := [], position := bytes.length }) := by
  have same := stored_of_kinded (encode_eq_ok_iff.mp h).1 kinded fun ref mem =>
    call_of_distinct returns distinct mem
  have read := decodeRest_encode fits.storable h
  rw [same] at read
  exact ⟨by rw [decode, read]; rfl, read⟩

/-- A module with two methods, one of them the entry: a loop with a forward and a backward branch,
type operands, and calls that mention several types.
-/
theorem decode_encode_loop
    : let loop : Body :=
        { locals := [.keyInfo, .byteArray]
          code := #[⟨.br, .target (.position 3)⟩, ⟨.ldcI4, .int 7⟩, ⟨.call, .method .consoleWrite⟩,
            ⟨.ldcI4One, .none⟩, ⟨.newarr, .type .byte⟩, ⟨.brtrue, .target (.position 1)⟩,
            ⟨.ldlocaS, .slot 0⟩, ⟨.call, .method .keyChar⟩, ⟨.ret, .none⟩] }
      let m : Module :=
        { name := text "p"
          version := { major := 1 }
          id := .ofBytes (text "0123456789abcdef")
          types := [
            { ns := text "p", name := text "T", base := .object
              methods := [.ctor, { name := text "run", isStatic := true, body := loop }] }]
          entry := .method 0 1 }
      ∃ bytes, m.encode = .ok bytes
        ∧ decode bytes = .ok m
        ∧ decodeRest bytes = .ok (m, { rest := [], position := bytes.length }) := by
  intro loop m
  have mirrors := References.mirrors_ofModule m
  have types : (References.ofModule m).types.toList
      = [.object, .void, .keyInfo, .byteArray, .console, .char, .byte] :=
    mirrors.types.trans (by decide)
  have members : (References.ofModule m).members.toList
      = [.objectCtor, .consoleWrite, .keyChar] :=
    mirrors.members.trans (by decide)
  have typeCount : (References.ofModule m).types.size = 7 := by
    rw [← Array.length_toList, types]
    rfl
  have memberCount : (References.ofModule m).members.size = 3 := by
    rw [← Array.length_toList, members]
    rfl
  obtain ⟨typeRefs, htypeRefs⟩
      : ∃ part, Encode.sequence Encode.typeRef (References.ofModule m).types.toList = .ok part := by
    rw [types]
    exact ⟨_, rfl⟩
  obtain ⟨memberRefs, hmemberRefs⟩
      : ∃ part, Encode.sequence (Encode.member (References.ofModule m))
          (References.ofModule m).members.toList = .ok part := by
    rw [members]
    exact ⟨_, rfl⟩
  obtain ⟨bytes, h⟩ : ∃ bytes, m.encode = .ok bytes :=
    ⟨_, encode_eq_ok_iff.mpr ⟨by decide, _, _, typeRefs, _, memberRefs, _, _, rfl,
      congrArg (Encode.count _) typeCount, htypeRefs, congrArg (Encode.count _) memberCount,
      hmemberRefs, rfl, rfl, rfl⟩⟩
  have fits : m.Fits := ⟨by decide, by decide, by decide, by decide, by decide⟩
  exact ⟨bytes, h, decode_encode fits (by decide) (by decide) (by decide) h⟩

end Module
end TapeIL
