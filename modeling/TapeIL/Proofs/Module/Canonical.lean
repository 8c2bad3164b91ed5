import TapeIL.Proofs.Module.Decoded

/-! Encoding has a canonical form. The tables of a stored module list the same types in the same
order, and the same members with their return types set, so that it is written as the same bytes.
-/

namespace TapeIL

------------------------------------------------------------------------------------------
-- tables of calls that have their return types set
------------------------------------------------------------------------------------------

theorem MethodRef.mentions_filled (ref : MethodRef) : ref.filled.mentions = ref.mentions := by
  rw [mentions, mentions, returned_filled]
  rfl

/-- What is referred to, with calls by the references `call` makes of them. -/
def Use.stored (call : MethodRef → MethodRef) : Use → Use
  | .type ref => .type ref
  | .member ref => .member (call ref)

namespace References

/-- The tables with the return types of their members set. -/
def filled (r : References) : References :=
  { r with members := r.members.map MethodRef.filled }

theorem addType_filled (r : References) (t : TypeRef)
    : r.filled.addType t = (r.addType t).filled := by
  unfold addType
  split <;> simp_all [filled]

theorem addTypes_filled (r : References) (ts : List TypeRef)
    : ts.foldl addType r.filled = (ts.foldl addType r).filled := by
  induction ts generalizing r with
  | nil => rfl
  | cons t ts ih => rw [List.foldl_cons, List.foldl_cons, addType_filled, ih]

theorem addMember_of_listed {r : References} {ref : MethodRef}
    (listed : ref.signature ∈ r.memberRows)
    : r.addMember ref = r :=
  if_pos listed

/-- A member that is not listed comes behind all others and the types it mentions. -/
theorem addMember_of_new {r : References} {ref : MethodRef} (new : ref.signature ∉ r.memberRows)
    : let typed := ref.mentions.foldl addType r
      r.addMember ref
        = { typed with
            members := typed.members.push ref
            memberRows := typed.memberRows.insert ref.signature (typed.members.size + 1) } :=
  if_neg new

theorem addMember_filled {r : References} {ref : MethodRef} (new : ref.signature ∉ r.memberRows)
    : r.filled.addMember ref.filled = (r.addMember ref).filled := by
  have still : ref.filled.signature ∉ r.filled.memberRows := by
    rw [MethodRef.signature_filled]
    exact new
  rw [addMember_of_new new, addMember_of_new still, MethodRef.mentions_filled, addTypes_filled,
    MethodRef.signature_filled]
  simp [filled]

/-- Adding types does not change members. -/
theorem addTypes_members (r : References) (ts : List TypeRef)
    : (ts.foldl addType r).members = r.members
      ∧ (ts.foldl addType r).memberRows = r.memberRows := by
  induction ts generalizing r with
  | nil => exact ⟨rfl, rfl⟩
  | cons t ts ih =>
      have first : (r.addType t).members = r.members ∧ (r.addType t).memberRows = r.memberRows := by
        unfold addType
        split <;> exact ⟨rfl, rfl⟩
      exact ⟨(ih _).1.trans first.1, (ih _).2.trans first.2⟩

------------------------------------------------------------------------------------------
-- calls are kept while tables grow
------------------------------------------------------------------------------------------

/-- The calls of some tables are listed in others, by the same references. -/
def Keeps (r s : References) : Prop :=
  ∀ ref : MethodRef, ref.signature ∈ r.memberRows
    → ref.signature ∈ s.memberRows ∧ s.call ref = r.call ref

variable {r s : References} {used : Use → Prop}

theorem Keeps.trans {t : References} (h : Keeps r s) (g : Keeps s t) : Keeps r t := by
  intro ref listed
  obtain ⟨listed, first⟩ := h ref listed
  obtain ⟨listed, second⟩ := g ref listed
  exact ⟨listed, second.trans first⟩

theorem keeps_of_eq (members : s.members = r.members) (rows : s.memberRows = r.memberRows)
    : Keeps r s := by
  intro ref listed
  refine ⟨rows ▸ listed, ?_⟩
  rw [call, call, memberRow, memberRow, members, rows]

/-- A new member has a row behind those of the others. -/
theorem keeps_addMember (h : Lists r used) (ref : MethodRef) : Keeps r (r.addMember ref) := by
  by_cases listed : ref.signature ∈ r.memberRows
  · rw [addMember_of_listed listed]
    exact keeps_of_eq rfl rfl
  · obtain ⟨members, rows⟩ := addTypes_members r ref.mentions
    rw [addMember_of_new listed, members, rows]
    intro other mem
    have differ : ref.signature ≠ other.signature := fun same => listed (same ▸ mem)
    obtain ⟨k, first, row, found, -⟩ := h.memberRow _ mem
    refine ⟨Std.HashMap.mem_insert.mpr (.inr mem), ?_⟩
    rw [call_of_row row found]
    refine call_of_row ?_ (getElem?_push_of_some ref found)
    rw [memberRow, Std.HashMap.getD_insert, if_neg (by simpa using differ), row]

theorem keeps_add (h : Lists r used) (u : Use) : Keeps r (r.add u) := by
  cases u with
  | type t =>
      obtain ⟨members, rows⟩ := addTypes_members r [t]
      exact keeps_of_eq members rows
  | member ref => exact keeps_addMember h ref

/-- Tables keep their calls while they are filled, by induction on the uses. -/
theorem keeps_foldl (h : Lists r used) (uses : List Use) : Keeps r (uses.foldl add r) := by
  induction uses generalizing r used with
  | nil => exact keeps_of_eq rfl rfl
  | cons u uses ih => exact (keeps_add h u).trans (ih (h.add u))

/-- Where a call is added, the tables have it: by itself if it is the first that prints so, and
else by one that was listed before.
-/
theorem add_stored (h : Lists r used) (u : Use)
    : r.filled.add (u.stored (r.add u).call) = (r.add u).filled := by
  cases u with
  | type t => exact addType_filled r t
  | member ref =>
      change r.filled.addMember ((r.addMember ref).call ref) = (r.addMember ref).filled
      by_cases listed : ref.signature ∈ r.memberRows
      · rw [addMember_of_listed listed]
        refine addMember_of_listed ?_
        rw [h.signature_call listed]
        exact listed
      · have call : (r.addMember ref).call ref = ref.filled := by
          rw [addMember_of_new listed]
          refine call_of_row ?_ Array.getElem?_push_size
          rw [memberRow, Std.HashMap.getD_insert_self]
        rw [call, addMember_filled listed]

/-- What is used in its stored form fills the tables as it does itself, by induction on the uses.
The calls are those of the tables in the end, which are kept from where they were listed on.
-/
theorem foldl_stored (h : Lists r used) {uses : List Use} (filling : uses.foldl add r = s)
    : (uses.map (Use.stored s.call)).foldl add r.filled = s.filled := by
  induction uses generalizing r used with
  | nil => rw [← filling]; rfl
  | cons u uses ih =>
      have same : u.stored s.call = u.stored (r.add u).call := by
        cases u with
        | type t => rfl
        | member ref =>
            -- The call is listed from here on, and later uses do not change its row.
            have listed := (h.addMember ref).members ref (.inl rfl)
            have kept := keeps_foldl (h.addMember ref) uses ref listed
            exact congrArg Use.member (filling ▸ kept.2)
      rw [List.map_cons, List.foldl_cons, same, add_stored h u]
      exact ih (h.add u) filling

end References

------------------------------------------------------------------------------------------
-- what a stored module refers to
------------------------------------------------------------------------------------------

section Uses

variable {call : MethodRef → MethodRef}

theorem Instruction.uses_stored (b : Body) (i : Instruction)
    : (i.stored call b).uses = i.uses.map (Use.stored call) := by
  cases kind : i.op.operandKind with
  | type => simp [uses, kind, typeOperand_stored kind, Use.stored]
  | method => simp [uses, kind, methodOperand_stored kind, Use.stored]
  | none | int | slot | target => simp [uses, kind]

theorem Body.uses_stored (b : Body) : (b.stored call).uses = b.uses.map (Use.stored call) := by
  have code : (b.code.map (Instruction.stored call b)).toList.flatMap Instruction.uses
      = (b.code.toList.flatMap Instruction.uses).map (Use.stored call) := by
    rw [Array.toList_map, List.flatMap_map, List.map_flatMap]
    exact List.flatMap_congr fun i _ => i.uses_stored b
  rw [uses, uses, List.map_append, List.map_map, ← code]
  rfl

theorem TypeDef.uses_stored (t : TypeDef)
    : (t.stored call).uses = t.uses.map (Use.stored call) := by
  simp only [uses, stored, List.flatMap_map, List.map_cons, List.map_flatMap, MethodDef.stored,
    Body.uses_stored]
  rfl

theorem Module.uses_stored (m : Module)
    : m.stored.uses = m.uses.map (Use.stored (References.ofModule m).call) := by
  simp only [uses, stored, List.flatMap_map, List.map_flatMap, TypeDef.uses_stored]

end Uses

/-- The tables of a stored module are those of the module, with return types set. -/
theorem References.ofModule_stored (m : Module) : ofModule m.stored = (ofModule m).filled := by
  have empty : ({} : References).filled = {} := by simp [filled]
  have filling := foldl_stored lists_empty (ofModule_eq m).symm
  rw [empty] at filling
  rw [ofModule_eq m.stored, Module.uses_stored, filling]

------------------------------------------------------------------------------------------
-- the bytes of a stored module
------------------------------------------------------------------------------------------

section Bytes

variable {call : MethodRef → MethodRef} {r : References} {b : Body}

theorem Body.offsets_stored (call : MethodRef → MethodRef) (b : Body)
    : (b.stored call).offsets = b.offsets := by
  rw [offsets, stored, Array.toList_map]
  exact offsetsFrom_map (f := Instruction.stored call b) (fun _ => rfl) 0 b.code.toList

/-- A call of the same signature has the same row. -/
theorem memberToken_filled {ref other : MethodRef} (same : other.signature = ref.signature)
    : Encode.memberToken r.filled other = Encode.memberToken r ref := by
  rw [Encode.memberToken, References.memberRow, same]
  rfl

theorem member_filled (ref : MethodRef)
    : Encode.member r.filled ref.filled = Encode.member r ref := by
  rw [Encode.member, MethodRef.returned_filled]
  rfl

/-- Stored operands are written as they were, by cases on what the opcode takes. -/
theorem operand_stored {i : Instruction} (offsets : Array Nat) (index : Nat)
    (inside : i.op.isBranch = true → (b.branch? i).isSome = true)
    (alike : ∀ ref, .member ref ∈ i.uses → (call ref).signature = ref.signature)
    : Encode.operand r.filled (b.stored call) offsets index (i.stored call b)
      = Encode.operand r b offsets index i := by
  unfold Encode.operand
  rw [Instruction.op_stored]
  cases kind : i.op.operandKind with
  | none => rfl
  | int => simp only [Instruction.int?_stored kind]
  | slot => simp only [Instruction.slot?_stored kind]
  | target =>
      have found := inside (by rw [OpCode.isBranch, kind]; rfl)
      simp only [Body.branch?_stored kind found]
  | type =>
      simp only [Instruction.typeOperand_stored kind]
      rfl
  | method =>
      simp only [Instruction.methodOperand_stored kind]
      refine memberToken_filled (alike _ ?_)
      simp [Instruction.uses, kind]

theorem code_stored (faithful : b.Faithful call)
    : Encode.code r.filled (b.stored call) = Encode.code r b := by
  rw [Encode.code, Encode.code, Body.offsets_stored, Body.stored, Array.toList_map, List.zipIdx_map,
    List.flatMap_map]
  refine List.flatMap_congr fun x listed => ?_
  have here : x.1 ∈ b.code :=
    Array.mem_toList_iff.mp (List.mem_of_getElem? (List.mk_mem_zipIdx_iff_getElem?.mp listed))
  exact congrArg (x.1.op.info.code :: ·)
    (operand_stored _ x.2 (faithful.inside x.1 here) (faithful.alike x.1 here))

theorem method_stored {m : MethodDef} (faithful : m.body.Faithful call)
    : Encode.method r.filled (m.stored call) = Encode.method r m := by
  rw [Encode.method, MethodDef.stored, code_stored faithful]
  rfl

/-- Parts that are made from others, and are written as those are. -/
theorem sequence_map {α β : Type} {write : β → Except EncodeError Bytes}
    {plain : α → Except EncodeError Bytes} {f : α → β} {xs : List α}
    (each : ∀ x ∈ xs, write (f x) = plain x)
    : Encode.sequence write (xs.map f) = Encode.sequence plain xs := by
  have parts : (xs.map f).mapM write = xs.mapM plain := by
    induction xs with
    | nil => rfl
    | cons x xs ih =>
        rw [List.forall_mem_cons] at each
        rw [List.map_cons, List.mapM_cons, List.mapM_cons, each.1, ih each.2]
  rw [Encode.sequence, parts]
  rfl

theorem typeDef_stored {t : TypeDef}
    (methods : ∀ m ∈ t.methods, Encode.method r.filled (m.stored call) = Encode.method r m)
    : Encode.typeDef r.filled (t.stored call) = Encode.typeDef r t := by
  simp only [Encode.typeDef, TypeDef.stored, List.length_map, sequence_map methods]
  rfl

end Bytes

namespace Module

variable {m : Module}

theorem bodies_stored (m : Module)
    : m.stored.bodies = m.bodies.map (Body.stored (References.ofModule m).call) := by
  simp only [bodies, stored, List.flatMap_map, List.map_flatMap, TypeDef.stored, List.map_map]
  rfl

theorem badBranch?_eq_none (good : ∀ b ∈ m.bodies, b.badTarget? = none) : m.badBranch? = none := by
  refine List.findSome?_eq_none_iff.mpr fun named listed => ?_
  obtain ⟨t, ht, listed⟩ := List.mem_flatMap.mp listed
  obtain ⟨method, hmethod, rfl⟩ := List.mem_map.mp listed
  exact Option.map_eq_none_iff.mpr (good method.body (mem_bodies ht hmethod))

/-- The stored form of branches that lead to positions of their bodies does so as well. -/
theorem badBranch?_stored (good : m.badBranch? = none) : m.stored.badBranch? = none := by
  refine badBranch?_eq_none ?_
  rw [bodies_stored, List.forall_mem_map]
  refine fun b mem => Body.badTarget?_eq_none fun stored listed branch => ?_
  obtain ⟨i, here, rfl⟩ := Array.mem_map.mp listed
  have kind : i.op.operandKind = .target := beq_iff_eq.mp branch
  have found := branches_inside good mem here branch
  rw [Body.branch?_stored kind found]
  exact found

theorem rowOf_stored (call : MethodRef → MethodRef) (types : List TypeDef) (type index : Nat)
    : rowOf (types.map (TypeDef.stored call)) type index = rowOf types type index := by
  simp [rowOf, ← List.map_take, List.foldr_map, TypeDef.stored]

/-- The entry of a stored module is in the same row. -/
theorem entryRow_stored (m : Module) : m.stored.entryRow = m.entryRow := by
  cases entry : m.entry with
  | none | detached => simp [entryRow, stored, storedEntry, entry]
  | method type index =>
      cases found : m.entryMethod? with
      | none => simp [entryRow, stored, storedEntry, entry, found]
      | some named =>
          have lookup := found
          simp only [entryMethod?, entry] at lookup
          obtain ⟨t, here, lookup⟩ := Option.bind_eq_some_iff.mp lookup
          obtain ⟨method, inside, -⟩ := Option.bind_eq_some_iff.mp lookup
          have again : m.stored.entryMethod?.isSome = true := by
            simp [entryMethod?, stored, storedEntry, entry, here, inside, TypeDef.stored]
          have same : m.stored.entry = .method type index := by
            simp [stored, storedEntry, entry, found]
          simp only [entryRow, same, again, entry, found, Option.isSome_some, if_true]
          exact rowOf_stored _ m.types type index

/-- A stored module is encoded as the module it is stored for. -/
theorem encode_stored (good : m.badBranch? = none) : m.stored.encode = m.encode := by
  have types : Encode.sequence (Encode.typeDef (References.ofModule m).filled) m.stored.types
      = Encode.sequence (Encode.typeDef (References.ofModule m)) m.types := by
    refine sequence_map fun t ht => typeDef_stored fun method hmethod => ?_
    exact method_stored (faithful_bodies good (mem_bodies ht hmethod))
  have members
      : Encode.sequence (Encode.member (References.ofModule m).filled)
          (References.ofModule m).filled.members.toList
        = Encode.sequence (Encode.member (References.ofModule m))
          (References.ofModule m).members.toList := by
    rw [References.filled, Array.toList_map]
    exact sequence_map fun ref _ => member_filled ref
  have entry : Encode.entryToken m.stored = Encode.entryToken m := by
    rw [Encode.entryToken, entryRow_stored]
    rfl
  have memberCount : (References.ofModule m).filled.members.size
      = (References.ofModule m).members.size :=
    Array.size_map
  have typeCount : m.stored.types.length = m.types.length := List.length_map _
  simp only [encode, badBranch?_stored good, good, References.ofModule_stored, types, members,
    entry, memberCount, typeCount]
  rfl

end Module

------------------------------------------------------------------------------------------
-- modules that differ in their calls only
------------------------------------------------------------------------------------------

/-- The same operand, or calls that print alike. -/
inductive Operand.Alike : Operand → Operand → Prop
  | same (operand : Operand) : Alike operand operand
  | call {ref other : MethodRef} (signature : ref.signature = other.signature)
    : Alike (.method ref) (.method other)

structure Instruction.Alike (i j : Instruction) : Prop where
  op : i.op = j.op
  operand : i.operand.Alike j.operand

structure Body.Alike (a b : Body) : Prop where
  locals : a.locals = b.locals
  code : List.Forall₂ Instruction.Alike a.code.toList b.code.toList

structure MethodDef.Alike (a b : MethodDef) : Prop where
  name : a.name = b.name
  isStatic : a.isStatic = b.isStatic
  body : a.body.Alike b.body

structure TypeDef.Alike (a b : TypeDef) : Prop where
  ns : a.ns = b.ns
  name : a.name = b.name
  base : a.base = b.base
  methods : List.Forall₂ MethodDef.Alike a.methods b.methods

/-- The same modules but for calls that are different references and print alike. -/
structure Module.Alike (a b : Module) : Prop where
  name : a.name = b.name
  version : a.version = b.version
  id : a.id = b.id
  types : List.Forall₂ TypeDef.Alike a.types b.types
  entry : a.entry = b.entry

theorem forall₂_map_self {α : Type} {R : α → α → Prop} {f : α → α} {xs : List α}
    (each : ∀ x ∈ xs, R (f x) x)
    : List.Forall₂ R (xs.map f) xs := by
  rw [List.forall₂_map_left_iff, List.forall₂_same]
  exact each

/-- An instruction with an operand of its opcode's kind is stored with the same operand, or with a
call that prints as its own does.
-/
theorem alike_instruction {call : MethodRef → MethodRef} {b : Body} {i : Instruction}
    (kinded : i.operand.kind? = some i.op.operandKind)
    (inside : i.op.isBranch = true → (b.branch? i).isSome = true)
    (alike : ∀ ref, .member ref ∈ i.uses → (call ref).signature = ref.signature)
    : (i.stored call b).Alike i := by
  refine ⟨rfl, ?_⟩
  by_cases calls : i.op.operandKind = .method
  · cases operand : i.operand with
    | method ref =>
        have own : i.methodOperand = ref := by
          simp [Instruction.methodOperand, Instruction.method?, operand]
        have stored : (i.stored call b).operand = .method (call ref) := by
          simp [Instruction.stored, Instruction.storedOperand, calls, own]
        rw [stored]
        exact .call (alike ref (by simp [Instruction.uses, calls, own]))
    | _ => simp [operand, calls, Operand.kind?] at kinded
  · have none : ∀ u ∈ i.uses, ∀ ref, u = .member ref → call ref = ref := by
      rintro u use ref rfl
      exact absurd (Instruction.call_of_uses use).1 calls
    rw [stored_instruction kinded inside none]
    exact .same i.operand

namespace Module

variable {m : Module}

/-- A module with operands of the kinds their opcodes take and an entry that is stored differs from
its stored form in its calls only.
-/
theorem alike_stored (good : m.badBranch? = none)
    (kinded : ∀ b ∈ m.bodies, ∀ i ∈ b.code, i.operand.kind? = some i.op.operandKind)
    (entry : m.storedEntry = m.entry)
    : m.stored.Alike m := by
  have bodies : ∀ b ∈ m.bodies, (b.stored (References.ofModule m).call).Alike b := by
    intro b mem
    refine ⟨rfl, ?_⟩
    rw [Body.stored, Array.toList_map]
    refine forall₂_map_self fun i here => ?_
    have here := Array.mem_toList_iff.mp here
    have faithful := faithful_bodies good mem
    exact alike_instruction (kinded b mem i here) (faithful.inside i here) (faithful.alike i here)
  refine ⟨rfl, rfl, rfl, forall₂_map_self fun t ht => ?_, entry⟩
  refine ⟨rfl, rfl, rfl, forall₂_map_self fun method hmethod => ?_⟩
  exact ⟨rfl, rfl, bodies _ (mem_bodies ht hmethod)⟩

theorem storedEntry_of_decoded {t : Decode.Tables} (h : DecodedWith t m)
    : m.storedEntry = m.entry := by
  rcases h.entryMethod with none | ⟨named, -, found⟩
  · simp [storedEntry, none]
  · rcases h.entry with none | ⟨row, type, index, entry, -⟩
    · simp [storedEntry, none]
    · simp [storedEntry, entry, found]

/-- Encoding a module that was decoded gives its canonical form, whatever it was decoded from. The
form can be decoded; this gives the same module, but for calls that are now by the first reference
that prints as they do; and encoding that module gives the form once more.
-/
theorem encode_canonical {bytes form : Bytes} (decoded : decode bytes = .ok m)
    (encoded : m.encode = .ok form)
    : ∃ again, decode form = .ok again ∧ again.Alike m ∧ again.encode = .ok form := by
  obtain ⟨t, made⟩ := decodedWith_of_decode decoded
  have good := (encode_eq_ok_iff.mp encoded).1
  refine ⟨m.stored, decode_eq_stored made.storable encoded, ?_, ?_⟩
  · exact alike_stored good (fun b mem => (made.regular.bodies b mem).kinded)
      (storedEntry_of_decoded made)
  · rw [encode_stored good, encoded]

/-- A module with a type row twice, an unused one, empty names, unset return types, and two calls
that print alike, followed by bytes that are not part of it.
-/
theorem encode_canonical_sloppy
    : let bytes : Bytes :=
        text "BFIL" ++ [1, 0, 0, 0, 0, 0, 0, 0, 0, 0, 0, 0] ++ text "0123456789abcdef"
          ++ [5, 0, 6, 0] ++ text "System" ++ [6, 0] ++ text "Object"
          ++ [6, 0] ++ text "System" ++ [6, 0] ++ text "Object" ++ [0, 0, 0, 0]
          ++ [0, 0, 13, 0] ++ text "System.Object" ++ [0, 0, 6, 0] ++ text "unused"
          ++ [2, 0, 1, 0, 0, 1, 1, 0] ++ text "f" ++ [0, 3, 0, 0, 1, 0]
          ++ [4, 0, 0, 1, 1, 0] ++ text "f" ++ [0, 3, 0, 0, 1, 0]
          ++ [1, 0, 0, 0, 0, 0, 2, 0, 0, 1, 1, 0, 0, 0, 0, 0, 0, 11, 0, 0, 0, 0x28, 2, 0, 0, 10,
            0x28, 1, 0, 0, 10, 0x2a, 1, 0, 0, 6] ++ text "tail"
      let first : MethodRef := { owner := ⟨[], text "System.Object"⟩, name := text "f" }
      let second : MethodRef := { owner := .object, name := text "f" }
      let body : Body :=
        { code := #[⟨.call, .method first⟩, ⟨.call, .method second⟩, ⟨.ret, .none⟩] }
      let m : Module :=
        { name := []
          version := {}
          id := .ofBytes (text "0123456789abcdef")
          types := [
            { ns := [], name := [], base := .object
              methods := [{ name := [], body }] }]
          entry := .method 0 0 }
      first ≠ second ∧ first.signature = second.signature
      ∧ decode bytes = .ok m
      ∧ ∃ form, m.encode = .ok form
        ∧ ∃ again, decode form = .ok again ∧ again.Alike m ∧ again.encode = .ok form := by
  intro bytes first second body m
  have decoded : decode bytes = .ok m := by decide +kernel
  obtain ⟨form, encoded⟩ := encode_succeeds (m := m) (by decide)
    ⟨by decide, by decide, by decide, by decide, by decide, by decide, by decide⟩
  exact ⟨by decide, by decide, decoded, form, encoded, encode_canonical decoded encoded⟩

end Module
end TapeIL
