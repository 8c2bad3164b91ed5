import TapeIL.Proofs.Module.Code

/-! The stored form of modules: every operand is of the kind its opcode takes, and calls that print
alike share one reference. References, methods, types and the entry are read back in that form.
-/

namespace TapeIL

open Decode

------------------------------------------------------------------------------------------
-- stored form
------------------------------------------------------------------------------------------

/-- The reference with its return type set. -/
def MethodRef.filled (ref : MethodRef) : MethodRef :=
  { ref with ret := ref.returned }

/-- The reference that a table has for a call. -/
def References.call (r : References) (ref : MethodRef) : MethodRef :=
  ((r.members[r.memberRow ref - 1]?).getD ref).filled

def MethodDef.stored (call : MethodRef → MethodRef) (m : MethodDef) : MethodDef :=
  { m with body := m.body.stored call }

def TypeDef.stored (call : MethodRef → MethodRef) (t : TypeDef) : TypeDef :=
  { t with methods := t.methods.map (MethodDef.stored call) }

namespace Module

/-- The entry method, if it is in a type of the module. -/
def storedEntry (m : Module) : Entry :=
  match m.entry with
  | .method type index => if m.entryMethod?.isSome then .method type index else .none
  | _ => .none

def stored (m : Module) : Module :=
  { m with
    types := m.types.map (TypeDef.stored (References.ofModule m).call)
    entry := m.storedEntry }

/-- All bodies in order. -/
def bodies (m : Module) : List Body :=
  m.types.flatMap fun t => t.methods.map MethodDef.body

end Module

theorem MethodRef.returned_filled (ref : MethodRef) : ref.filled.returned = ref.returned := by
  change (if ref.returned.isUnset then .void else ref.returned) = ref.returned
  unfold returned
  cases unset : ref.ret.isUnset with
  | true => rfl
  | false => simp only [Bool.false_eq_true, if_false, unset]

/-- An unset return type prints as the one that it is set to. -/
theorem MethodRef.signature_filled (ref : MethodRef) : ref.filled.signature = ref.signature := by
  simp only [signature, returned_filled]
  rfl

theorem References.call_of_row {r : References} {ref other : MethodRef} {k : Nat}
    (row : r.memberRow ref = k + 1) (found : r.members[k]? = some other)
    : r.call ref = other.filled := by
  rw [call, row, Nat.add_sub_cancel, found, Option.getD_some]

/-- The reference that tables have for a call prints as the call does. -/
theorem References.Lists.signature_call {r : References} {used : Use → Prop} (h : Lists r used)
    {ref : MethodRef} (listed : ref.signature ∈ r.memberRows)
    : (r.call ref).signature = ref.signature := by
  obtain ⟨k, other, row, found, signature⟩ := h.memberRow _ listed
  rw [call_of_row row found, MethodRef.signature_filled, signature]

------------------------------------------------------------------------------------------
-- references
------------------------------------------------------------------------------------------

section References

variable {t : Tables} {r : References}

theorem reads_typeRef {ref : TypeRef} {bytes : Bytes} (h : Encode.typeRef ref = .ok bytes)
    : Reads typeRef bytes ref := by
  obtain ⟨ns, hns, h⟩ := ok_of_bind h
  obtain ⟨name, hname, h⟩ := ok_of_bind h
  cases h
  exact (reads_string hns).bind (reads_string hname).map

theorem reads_typeToken {ref : TypeRef}
    (found : TokenTable.typeRef.find? t.types (TokenTable.typeRef.token (r.typeRow ref)) = some ref)
    : Reads (typeToken t) (Encode.typeToken r ref) ref := by
  refine (reads_u32 _).finish ?_
  simp only [found]
  exact Reads.pure ref

/-- A member reference is read with its return type set, if the types it mentions are found. -/
theorem reads_member {ref : MethodRef} {bytes : Bytes} (short : ref.params.length ≤ 255)
    (found : ∀ type ∈ ref.mentions,
      TokenTable.typeRef.find? t.types (TokenTable.typeRef.token (r.typeRow type)) = some type)
    (h : Encode.member r ref = .ok bytes)
    : Reads (member t) bytes ref.filled := by
  obtain ⟨name, written, h⟩ := ok_of_bind h
  cases h
  simp only [MethodRef.mentions, List.forall_mem_cons] at found
  obtain ⟨owner, returned, params⟩ := found
  have flag : (UInt8.ofNat ref.hasThis.toNat != 0) = ref.hasThis := by cases ref.hasThis <;> rfl
  simp only [List.append_assoc]
  refine (reads_typeToken owner).bind ((reads_string written).bind ((reads_u8 _).bind
    ((reads_typeToken returned).bind ?_)))
  rw [← bind_assoc]
  refine (reads_short short fun type mem => reads_typeToken (params type mem)).finish ?_
  rw [flag]
  exact Reads.pure ref.filled

/-- The flag of static methods is read back, whatever other flags a method has. -/
theorem isStatic_flags (m : MethodDef) : (Encode.flags m &&& 0x0010 != 0) = m.isStatic := by
  unfold Encode.flags
  by_cases ctor : m.name = MethodDef.ctorName <;> cases m.isStatic <;>
    simp only [ctor, Bool.false_eq_true, if_true, if_false] <;> rfl

/-- A method is read in its stored form. -/
theorem reads_method {call : MethodRef → MethodRef} {m : MethodDef} {bytes : Bytes}
    (readable : Readable t r call m.body) (short : m.body.locals.length ≤ 255)
    (h : Encode.method r m = .ok bytes)
    : Reads (method t) bytes (m.stored call) := by
  obtain ⟨name, written, h⟩ := ok_of_bind h
  cases h
  have locals : ∀ type ∈ m.body.locals, Reads (typeToken t) (Encode.typeToken r type) type := by
    intro type mem
    refine reads_typeToken (readable.serves.type type ?_)
    exact List.mem_append_left _ (List.mem_map_of_mem mem)
  have size : (UInt32.ofNat (Encode.code r m.body).length).toNat
      = (Encode.code r m.body).length := by
    refine UInt32.toNat_ofNat_of_lt' ?_
    rw [length_code]
    exact readable.size
  simp only [List.append_assoc]
  refine (reads_string written).bind ((reads_u16 _).bind ?_)
  rw [← bind_assoc, ← List.append_assoc]
  refine (reads_short short locals).bind ((reads_u32 _).bind ?_)
  rw [size]
  refine (reads_take _).finish ?_
  simp only [code_read readable, isStatic_flags]
  have code : (m.body.code.toList.map (Instruction.stored call m.body)).toArray
      = m.body.code.map (Instruction.stored call m.body) := by
    rw [← Array.toList_map]
  rw [code]
  exact Reads.pure (m.stored call)

/-- A type is read in its stored form. -/
theorem reads_typeDef {call : MethodRef → MethodRef} {type : TypeDef} {bytes : Bytes}
    (base : Reads (typeToken t) (Encode.typeToken r type.base) type.base)
    (methods : ∀ m ∈ type.methods, ∀ part, Encode.method r m = .ok part
      → Reads (method t) part (m.stored call))
    (h : Encode.typeDef r type = .ok bytes)
    : Reads (typeDef t) bytes (type.stored call) := by
  obtain ⟨ns, hns, h⟩ := ok_of_bind h
  obtain ⟨name, hname, h⟩ := ok_of_bind h
  obtain ⟨length, hlength, h⟩ := ok_of_bind h
  obtain ⟨parts, hparts, h⟩ := ok_of_bind h
  cases h
  simp only [List.append_assoc]
  refine (reads_string hns).bind ((reads_string hname).bind (base.bind ?_))
  rw [← bind_assoc]
  exact (reads_counted hlength hparts methods).finish (Reads.pure (type.stored call))

end References

------------------------------------------------------------------------------------------
-- the entry method
------------------------------------------------------------------------------------------

namespace Module

/-- Methods are located by how many of them the types have, by induction on the types. -/
theorem locate?_stored (call : MethodRef → MethodRef) (types : List TypeDef) (row : Nat)
    : locate? (types.map (TypeDef.stored call)) row = locate? types row := by
  induction types generalizing row with
  | nil => rfl
  | cons t rest ih => simp [locate?, TypeDef.stored, ih]

theorem rowOf_succ (t : TypeDef) (rest : List TypeDef) (type index : Nat)
    : rowOf (t :: rest) (type + 1) index = t.methods.length + rowOf rest type index := by
  simp only [rowOf, List.take_succ_cons, List.foldr_cons]
  omega

/-- The row of a method leads back to it and is at most the number of all methods, by induction on
the types.
-/
theorem locate?_rowOf {types : List TypeDef} {type index : Nat} {t : TypeDef}
    (here : types[type]? = some t) (inside : index < t.methods.length)
    : ∃ row, rowOf types type index = row + 1
      ∧ row < (types.flatMap fun t => t.methods.map MethodDef.body).length
      ∧ locate? types row = some (type, index) := by
  induction types generalizing type with
  | nil => simp at here
  | cons first rest ih =>
      cases type with
      | zero =>
          obtain rfl : first = t := by simpa using here
          refine ⟨index, by simp [rowOf], ?_, by simp [locate?, inside]⟩
          simp only [List.flatMap_cons, List.length_append, List.length_map]
          omega
      | succ type =>
          obtain ⟨row, eq, bound, found⟩ := ih (by simpa using here)
          refine ⟨first.methods.length + row, by rw [rowOf_succ, eq, Nat.add_assoc], ?_, ?_⟩
          · simp only [List.flatMap_cons, List.length_append, List.length_map]
            omega
          · simp [locate?, found]

theorem methodDef_token_ne_zero {row : Nat} (fits : row < 2 ^ 24)
    : TokenTable.methodDef.token row ≠ 0 := by
  intro zero
  have number := toNat_token .methodDef fits
  rw [zero, show TokenTable.methodDef.number.toNat = 6 from rfl, UInt32.toNat_zero] at number
  omega

/-- A method that is among few has a small row. -/
theorem entryRow_lt {m : Module} (few : m.bodies.length < 2 ^ 24) : m.entryRow < 2 ^ 24 := by
  unfold entryRow entryMethod?
  cases m.entry with
  | none | detached fullName method => exact Nat.two_pow_pos 24
  | method type index =>
      dsimp only
      split
      next found =>
        obtain ⟨named, found⟩ := Option.isSome_iff_exists.mp found
        obtain ⟨t, here, found⟩ := Option.bind_eq_some_iff.mp found
        obtain ⟨method, inside, -⟩ := Option.bind_eq_some_iff.mp found
        obtain ⟨row, eq, bound, -⟩ := locate?_rowOf here (List.getElem?_eq_some_iff.mp inside).1
        rw [eq]
        exact Nat.lt_of_le_of_lt bound few
      next => exact Nat.two_pow_pos 24

/-- The entry token leads to the entry method, or to none if that is in no type. -/
theorem entry_read {m : Module} (call : MethodRef → MethodRef) (few : m.entryRow < 2 ^ 24)
    : Decode.entry (m.types.map (TypeDef.stored call)) (Encode.entryToken m)
      = .ok m.storedEntry := by
  cases entry : m.entry with
  | none => simp [Encode.entryToken, entryRow, storedEntry, entry, Decode.entry]
  | detached fullName method =>
      simp [Encode.entryToken, entryRow, storedEntry, entry, Decode.entry]
  | method type index =>
      cases found : m.entryMethod? with
      | none => simp [Encode.entryToken, entryRow, storedEntry, entry, found, Decode.entry]
      | some named =>
          have stored : m.storedEntry = .method type index := by simp [storedEntry, entry, found]
          have number : m.entryRow = rowOf m.types type index := by simp [entryRow, entry, found]
          simp only [entryMethod?, entry] at found
          obtain ⟨t, here, found⟩ := Option.bind_eq_some_iff.mp found
          obtain ⟨method, inside, -⟩ := Option.bind_eq_some_iff.mp found
          have index_lt := (List.getElem?_eq_some_iff.mp inside).1
          obtain ⟨row, eq, -, located⟩ := locate?_rowOf here index_lt
          have fits : row + 1 < 2 ^ 24 := by rwa [number, eq] at few
          have token : Encode.entryToken m = TokenTable.methodDef.token (row + 1) := by
            simp [Encode.entryToken, number, eq]
          rw [token, Decode.entry, if_neg (methodDef_token_ne_zero fits),
            row?_token .methodDef fits]
          simp only [locate?_stored, located, stored]

end Module

end TapeIL
