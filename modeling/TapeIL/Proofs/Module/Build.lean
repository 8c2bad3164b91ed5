import TapeIL.Module.Build
import TapeIL.Proofs.Lint.Effect
import TapeIL.Proofs.Module.Canonical
import TapeIL.Proofs.Tape.Brackets

/-! Modules of compiled programs. All of them refer to the same few types and methods of the
runtime, so that nothing but a long name keeps one from being encoded.
-/

namespace TapeIL

------------------------------------------------------------------------------------------
-- what compiled programs refer to
------------------------------------------------------------------------------------------

/-- The types that compiled programs refer to, and those that the methods of the machine mention. -/
def TypeRef.builtins : List TypeRef :=
  [.object, .void, .byteArray, .int32, .keyInfo, .byte, .console, .char, .boolean]

/-- Whether a use is one of a type or a method of the runtime that compiled programs need. -/
def Use.isBuiltin : Use → Bool
  | .type ref => TypeRef.builtins.contains ref
  | .member ref => MethodRef.builtins.contains ref

def Instruction.isBuiltin (i : Instruction) : Bool :=
  i.uses.all Use.isBuiltin

namespace Tape

theorem isBuiltin_window (intercept : Bool) (partner : Nat) (c : Command)
    : (Window.ofCommand intercept partner c).all Instruction.isBuiltin = true := by
  cases c <;> cases intercept <;> rfl

/-- Code is made of windows, by induction on the commands that it is laid out for. -/
theorem isBuiltin_layout (intercept : Bool) (start : Nat) (opened : List Nat) (cs : List Command)
    : (layout intercept start opened cs).1.all Instruction.isBuiltin = true := by
  induction cs generalizing start opened with
  | nil => rfl
  | cons c rest ih =>
      cases c with
      | loopStart =>
          simp only [layout, List.all_append, ih, Bool.and_true]
          exact isBuiltin_window intercept _ .loopStart
      | loopEnd =>
          simp only [layout, List.all_append, ih, Bool.and_true]
          exact isBuiltin_window intercept _ .loopEnd
      | _ => simp only [layout, List.all_append, ih, isBuiltin_window, Bool.and_true]

theorem isBuiltin_body (cells : Int32) (intercept : Bool) (cs : List Command)
    : (body cells intercept cs).uses.all Use.isBuiltin = true := by
  have code : (body cells intercept cs).code.toList.all Instruction.isBuiltin = true := by
    simp only [body, List.all_append, isBuiltin_layout, Bool.and_true]
    rfl
  rw [Body.uses, List.all_append, List.all_flatMap]
  exact Bool.and_eq_true_iff.mpr ⟨rfl, code⟩

end Tape

namespace References.Listing

/-- Each item of the listing is there once, and belongs to the runtime. -/
structure Builtin (l : Listing) : Prop where
  types : l.types ⊆ TypeRef.builtins
  typesOnce : l.types.Nodup
  members : l.members ⊆ MethodRef.builtins
  membersOnce : l.members.Nodup

variable {l : Listing}

theorem Builtin.addType (h : l.Builtin) {t : TypeRef} (builtin : t ∈ TypeRef.builtins)
    : (l.addType t).Builtin := by
  unfold Listing.addType
  split
  next => exact h
  next fresh =>
    refine ⟨?_, ?_, h.members, h.membersOnce⟩
    · exact List.append_subset.mpr ⟨h.types, by simpa using builtin⟩
    · exact List.nodup_append_comm.mp (List.nodup_cons.mpr ⟨fresh, h.typesOnce⟩)

theorem Builtin.addTypes (h : l.Builtin) {ts : List TypeRef} (builtin : ts ⊆ TypeRef.builtins)
    : (ts.foldl Listing.addType l).Builtin := by
  induction ts generalizing l with
  | nil => exact h
  | cons t ts ih =>
      rw [List.cons_subset] at builtin
      exact ih (h.addType builtin.1) builtin.2

theorem members_addTypes (l : Listing) (ts : List TypeRef)
    : (ts.foldl Listing.addType l).members = l.members := by
  induction ts generalizing l with
  | nil => rfl
  | cons t ts ih =>
      rw [List.foldl_cons, ih, Listing.addType]
      split <;> rfl

theorem Builtin.addMember (h : l.Builtin) {ref : MethodRef} (builtin : ref ∈ MethodRef.builtins)
    : (l.addMember ref).Builtin := by
  unfold Listing.addMember
  split
  next => exact h
  next fresh =>
    have mentions : ∀ ref ∈ MethodRef.builtins, ref.mentions ⊆ TypeRef.builtins := by decide
    have typed := h.addTypes (mentions ref builtin)
    refine ⟨typed.types, typed.typesOnce, ?_, ?_⟩
    · exact List.append_subset.mpr ⟨typed.members, by simpa using builtin⟩
    · refine List.nodup_append_comm.mp (List.nodup_cons.mpr ⟨?_, typed.membersOnce⟩)
      rw [members_addTypes]
      exact fun listed => fresh (List.mem_map_of_mem listed)

/-- A listing of builtin uses is builtin, by induction on the uses. -/
theorem builtin_ofModule {m : Module} (h : m.uses.all Use.isBuiltin = true)
    : (ofModule m).Builtin := by
  have general (uses : List Use) (builtin : uses.all Use.isBuiltin = true) {l : Listing}
      (h : l.Builtin)
      : (uses.foldl add l).Builtin := by
    induction uses generalizing l with
    | nil => exact h
    | cons u uses ih =>
        rw [List.all_cons, Bool.and_eq_true] at builtin
        refine ih builtin.2 ?_
        cases u with
        | type t => exact h.addType (List.contains_iff_mem.mp builtin.1)
        | member ref => exact h.addMember (List.contains_iff_mem.mp builtin.1)
  exact general m.uses h ⟨by simp, .nil, by simp, .nil⟩

end References.Listing

------------------------------------------------------------------------------------------
-- built modules
------------------------------------------------------------------------------------------

namespace Module

variable {body : Body} {o : Options} {m : Module}

/-- What is built: a program type with a constructor and the entry method, whose branches are
good.
-/
theorem build_eq_ok (h : build body o = .ok m)
    : body.badTarget? = none
      ∧ ∃ version id, m = { ofEntry o.name version body with id } := by
  unfold build at h
  obtain ⟨version, -, h⟩ := Decode.ok_of_bind h
  cases bad : body.badTarget? with
  | some e => simp [bad] at h; contradiction
  | none =>
      simp only [bad] at h
      cases h
      exact ⟨rfl, version, _, rfl⟩

/-- A built module has an entry method. -/
theorem entryMethod?_of_build (h : build body o = .ok m) : m.entryMethod?.isSome = true := by
  obtain ⟨-, version, id, rfl⟩ := build_eq_ok h
  rfl

theorem badBranch?_of_build (h : build body o = .ok m) : m.badBranch? = none := by
  obtain ⟨good, version, id, rfl⟩ := build_eq_ok h
  have ctor : MethodDef.ctor.body.badTarget? = none := by decide
  refine badBranch?_eq_none fun b mem => ?_
  obtain rfl | rfl : b = MethodDef.ctor.body ∨ b = body := by simpa [bodies, ofEntry] using mem
  · exact ctor
  · exact good

theorem isBuiltin_of_build {p : Program} (compiled : p.compile o = .ok body)
    (built : build body o = .ok m)
    : m.uses.all Use.isBuiltin = true := by
  obtain ⟨-, cs, -, -, -, rfl⟩ := Tape.compile_eq_ok_iff.mp compiled
  obtain ⟨-, version, id, rfl⟩ := build_eq_ok built
  have code := Tape.isBuiltin_body (Int32.ofInt o.cells) o.intercept cs
  have ctor : MethodDef.ctor.body.uses.all Use.isBuiltin = true := by decide
  have base : Use.isBuiltin (.type .object) = true := by decide
  simp [uses, ofEntry, TypeDef.uses, List.all_append, base, ctor, code]

/-- The module of a compiled program is short, if its name is. -/
theorem short_of_build {p : Program} (compiled : p.compile o = .ok body)
    (built : build body o = .ok m) (name : o.name.length ≤ Encode.maxCount)
    : m.Short := by
  have listing := References.Listing.builtin_ofModule (isBuiltin_of_build compiled built)
  have types := listing.typesOnce.subperm listing.types
  have members := listing.membersOnce.subperm listing.members
  have typeNames : ∀ ref ∈ TypeRef.builtins,
      ref.ns.length ≤ Encode.maxCount ∧ ref.name.length ≤ Encode.maxCount := by decide
  have memberNames : ∀ ref ∈ MethodRef.builtins, ref.name.length ≤ Encode.maxCount := by decide
  have program : TypeDef.programName.length ≤ Encode.maxCount := by decide
  have ctor : MethodDef.ctor.name.length ≤ Encode.maxCount := by decide
  have entry : MethodDef.entryName.length ≤ Encode.maxCount := by decide
  obtain ⟨-, version, id, rfl⟩ := build_eq_ok built
  exact {
    name
    typeRefs := types.length_le.trans (by decide)
    typeRef := fun ref listed => typeNames ref (listing.types listed)
    members := members.length_le.trans (by decide)
    member := fun ref listed => memberNames ref (listing.members listed)
    types := by simp [ofEntry, Encode.maxCount]
    type := by
      intro t listed
      obtain rfl := List.mem_singleton.mp listed
      refine ⟨name, program, by simp [Encode.maxCount], ?_⟩
      intro method inside
      rcases List.mem_pair.mp inside with rfl | rfl
      · exact ctor
      · exact entry }

/-- The module of a compiled program is encoded, unless its name is too long for that. -/
theorem encode_of_build {p : Program} (compiled : p.compile o = .ok body)
    (built : build body o = .ok m)
    : (o.name.length ≤ Encode.maxCount ∧ ∃ bytes, m.encode = .ok bytes)
      ∨ (Encode.maxCount < o.name.length ∧ m.encode = .error (.longText o.name.length)) := by
  have good := badBranch?_of_build built
  rcases Nat.lt_or_ge Encode.maxCount o.name.length with long | short
  · have name : m.name = o.name := by
      obtain ⟨-, version, id, rfl⟩ := build_eq_ok built
      rfl
    refine .inr ⟨long, ?_⟩
    simp only [encode, good, Encode.string, name, if_neg (Nat.not_le.mpr long)]
    rfl
  · exact .inl ⟨short, encode_succeeds good (short_of_build compiled built short)⟩

end Module
end TapeIL
