import Mathlib
import TapeIL.Module.References

/-! The reference tables of a module list everything the module uses, and the row of each use leads
back to it.
-/

namespace TapeIL

/-- Something that a module refers to. -/
inductive Use where
  | type (ref : TypeRef)
  | member (ref : MethodRef)

/-- What an instruction refers to, as the kind of its opcode asks for. -/
def Instruction.uses (i : Instruction) : List Use :=
  match i.op.operandKind with
  | .type => [.type i.typeOperand]
  | .method => [.member i.methodOperand]
  | _ => []

/-- Only a call refers to a member, and that is its operand. -/
theorem Instruction.call_of_uses {i : Instruction} {ref : MethodRef} (use : .member ref ∈ i.uses)
    : i.op.operandKind = .method ∧ i.methodOperand = ref := by
  unfold uses at use
  split at use
  next => simp at use
  next kind => exact ⟨kind, (Use.member.inj (List.mem_singleton.mp use)).symm⟩
  next => simp at use

def Body.uses (b : Body) : List Use :=
  b.locals.map .type ++ b.code.toList.flatMap Instruction.uses

/-- What an instruction of a body refers to, the body does. -/
theorem use_of_instruction {b : Body} {i : Instruction} (here : i ∈ b.code) {u : Use}
    (use : u ∈ i.uses)
    : u ∈ b.uses :=
  List.mem_append_right _ (List.mem_flatMap.mpr ⟨i, Array.mem_toList_iff.mpr here, use⟩)

def TypeDef.uses (t : TypeDef) : List Use :=
  .type t.base :: t.methods.flatMap fun method => method.body.uses

/-- Everything that a module refers to, in the order of its use. -/
def Module.uses (m : Module) : List Use :=
  m.types.flatMap TypeDef.uses

/-- The method references of a module, in the order of their use. -/
def Module.calls (m : Module) : List MethodRef :=
  m.uses.filterMap fun
    | .type _ => none
    | .member ref => some ref

theorem Module.mem_calls {m : Module} {ref : MethodRef} : ref ∈ m.calls ↔ .member ref ∈ m.uses := by
  rw [Module.calls, List.mem_filterMap]
  constructor
  · rintro ⟨type | member, mem, found⟩
    · contradiction
    · cases found
      exact mem
  · intro mem
    exact ⟨.member ref, mem, rfl⟩

/-- The types that a member reference mentions. -/
def MethodRef.mentions (ref : MethodRef) : List TypeRef :=
  ref.owner :: ref.returned :: ref.params

namespace References

def add (r : References) : Use → References
  | .type ref => r.addType ref
  | .member ref => r.addMember ref

theorem addInstruction_eq (r : References) (i : Instruction)
    : r.addInstruction i = i.uses.foldl add r := by
  unfold addInstruction Instruction.uses
  split <;> simp_all [add]

theorem addBody_eq (r : References) (b : Body) : r.addBody b = b.uses.foldl add r := by
  have instructions : addInstruction = fun r i => i.uses.foldl add r :=
    funext fun r => funext fun i => addInstruction_eq r i
  rw [addBody, Body.uses, List.foldl_append, List.foldl_map, List.foldl_flatMap, instructions,
    Array.foldl_toList]
  rfl

theorem addTypeDef_eq (r : References) (t : TypeDef) : r.addTypeDef t = t.uses.foldl add r := by
  simp only [addTypeDef, TypeDef.uses, List.foldl_cons, List.foldl_flatMap, addBody_eq]
  rfl

/-- The tables are filled by one use after another. -/
theorem ofModule_eq (m : Module) : ofModule m = m.uses.foldl add {} := by
  have types : addTypeDef = fun r t => t.uses.foldl add r :=
    funext fun r => funext fun t => addTypeDef_eq r t
  rw [ofModule, Module.uses, List.foldl_flatMap, types]

------------------------------------------------------------------------------------------
-- what the tables list
------------------------------------------------------------------------------------------

/-- The tables list what is used: rows lead back to what they are rows of, and the types that
members mention are listed as well.
-/
structure Lists (r : References) (used : Use → Prop) : Prop where
  typeRow : ∀ t ∈ r.typeRows, ∃ k, r.typeRow t = k + 1 ∧ r.types[k]? = some t
  memberRow : ∀ key ∈ r.memberRows, ∃ k ref,
    r.memberRows.getD key 0 = k + 1 ∧ r.members[k]? = some ref ∧ ref.signature = key
  mentioned : ∀ ref ∈ r.members, ∀ t ∈ ref.mentions, t ∈ r.typeRows
  known : ∀ ref ∈ r.members, used (.member ref)
  types : ∀ t, used (.type t) → t ∈ r.typeRows
  members : ∀ ref, used (.member ref) → ref.signature ∈ r.memberRows

theorem lists_empty : Lists {} fun _ => False :=
  ⟨by simp, by simp, by simp, by simp, by simp, by simp⟩

variable {r : References} {used : Use → Prop}

/-- An item that a table has stays at its place behind a new one. -/
theorem getElem?_push_of_some {α : Type} {xs : Array α} {k : Nat} {x : α} (y : α)
    (found : xs[k]? = some x)
    : (xs.push y)[k]? = some x := by
  have inside := (Array.getElem?_eq_some_iff.mp found).1
  rw [Array.getElem?_push_lt inside, ← Array.getElem?_eq_getElem inside, found]

/-- A new type gets the next row; the rows of all others stay. -/
theorem Lists.addType (h : Lists r used) (t : TypeRef)
    : Lists (r.addType t) fun u => u = .type t ∨ used u := by
  by_cases listed : r.typeRows.contains t = true
  · rw [References.addType, if_pos listed]
    refine ⟨h.typeRow, h.memberRow, h.mentioned, fun ref mem => .inr (h.known ref mem), ?_, ?_⟩
    · rintro other (same | uses)
      · cases same
        exact listed
      · exact h.types other uses
    · rintro ref (same | uses)
      · cases same
      · exact h.members ref uses
  · rw [References.addType, if_neg listed]
    refine ⟨?_, h.memberRow, ?_, fun ref mem => .inr (h.known ref mem), ?_, ?_⟩
    · intro other mem
      by_cases same : t = other
      · subst same
        exact ⟨r.types.size, by simp [References.typeRow], by simp⟩
      · have before : other ∈ r.typeRows := by simpa [Std.HashMap.mem_insert, same] using mem
        obtain ⟨k, row, found⟩ := h.typeRow other before
        refine ⟨k, ?_, getElem?_push_of_some t found⟩
        simpa [References.typeRow, Std.HashMap.getD_insert, same] using row
    · intro ref mem other mentions
      exact Std.HashMap.mem_insert.mpr (.inr (h.mentioned ref mem other mentions))
    · rintro other (same | uses)
      · cases same
        exact Std.HashMap.mem_insert_self
      · exact Std.HashMap.mem_insert.mpr (.inr (h.types other uses))
    · rintro ref (same | uses)
      · cases same
      · exact h.members ref uses

theorem Lists.addTypes (h : Lists r used) (ts : List TypeRef)
    : Lists (ts.foldl References.addType r) fun u => (∃ t ∈ ts, u = .type t) ∨ used u := by
  induction ts generalizing r used with
  | nil => simpa using h
  | cons t ts ih => simpa [or_assoc, or_left_comm] using ih (h.addType t)

/-- A new member gets the next row, after the types it mentions; the rows of all others stay. -/
theorem Lists.addMember (h : Lists r used) (ref : MethodRef)
    : Lists (r.addMember ref) fun u => u = .member ref ∨ used u := by
  by_cases listed : r.memberRows.contains ref.signature = true
  · rw [References.addMember, if_pos listed]
    refine ⟨h.typeRow, h.memberRow, h.mentioned, fun other mem => .inr (h.known other mem), ?_, ?_⟩
    · rintro t (same | uses)
      · cases same
      · exact h.types t uses
    · rintro other (same | uses)
      · cases same
        exact listed
      · exact h.members other uses
  · rw [References.addMember, if_neg listed]
    have typed := h.addTypes ref.mentions
    refine ⟨typed.typeRow, ?_, ?_, ?_, ?_, ?_⟩
    · intro key mem
      by_cases same : ref.signature = key
      · subst same
        exact ⟨_, ref, Std.HashMap.getD_insert_self, Array.getElem?_push_size, rfl⟩
      · have before := (Std.HashMap.mem_insert.mp mem).resolve_left (by simpa using same)
        obtain ⟨k, other, row, found, signature⟩ := typed.memberRow key before
        refine ⟨k, other, ?_, getElem?_push_of_some ref found, signature⟩
        rw [Std.HashMap.getD_insert, if_neg (by simpa using same)]
        exact row
    · intro other mem t mentions
      rcases Array.mem_push.mp mem with before | rfl
      · exact typed.mentioned other before t mentions
      · exact typed.types t (.inl ⟨t, mentions, rfl⟩)
    · intro other mem
      rcases Array.mem_push.mp mem with before | rfl
      · exact .inr ((typed.known other before).resolve_left (by simp))
      · exact .inl rfl
    · rintro t (same | uses)
      · cases same
      · exact typed.types t (.inr uses)
    · rintro other (same | uses)
      · cases same
        exact Std.HashMap.mem_insert_self
      · exact Std.HashMap.mem_insert.mpr (.inr (typed.members other (.inr uses)))

theorem Lists.add (h : Lists r used) (u : Use) : Lists (r.add u) fun v => v = u ∨ used v := by
  cases u with
  | type t => exact h.addType t
  | member ref => exact h.addMember ref

/-- Filling the tables lists every use, by induction on the uses. -/
theorem Lists.foldl (h : Lists r used) (uses : List Use)
    : Lists (uses.foldl References.add r) fun u => u ∈ uses ∨ used u := by
  induction uses generalizing r used with
  | nil => simpa using h
  | cons u uses ih => simpa [or_assoc, or_left_comm] using ih (h.add u)

theorem lists_ofModule (m : Module) : Lists (ofModule m) (· ∈ m.uses) := by
  simpa [ofModule_eq] using lists_empty.foldl m.uses

/-- The row of a type that is used leads back to the type. -/
theorem Lists.row_of_type (h : Lists r used) {t : TypeRef} (uses : used (.type t))
    : ∃ k, r.typeRow t = k + 1 ∧ r.types[k]? = some t :=
  h.typeRow t (h.types t uses)

/-- The row of a member that is used leads to a member that is used as well and has the same
signature.
-/
theorem Lists.row_of_member (h : Lists r used) {ref : MethodRef} (uses : used (.member ref))
    : ∃ k other, r.memberRow ref = k + 1 ∧ r.members[k]? = some other
      ∧ other.signature = ref.signature ∧ used (.member other) := by
  obtain ⟨k, other, row, found, signature⟩ := h.memberRow _ (h.members ref uses)
  exact ⟨k, other, row, found, signature, h.known other (Array.mem_of_getElem? found)⟩

------------------------------------------------------------------------------------------
-- the tables without their rows
------------------------------------------------------------------------------------------

/-- What tables list, in the order of their rows. -/
structure Listing where
  types : List TypeRef := []
  members : List MethodRef := []

namespace Listing

def addType (l : Listing) (t : TypeRef) : Listing :=
  if t ∈ l.types then l else { l with types := l.types ++ [t] }

def addMember (l : Listing) (ref : MethodRef) : Listing :=
  if ref.signature ∈ l.members.map MethodRef.signature then l
  else
    let l := ref.mentions.foldl addType l
    { l with members := l.members ++ [ref] }

def add (l : Listing) : Use → Listing
  | .type ref => l.addType ref
  | .member ref => l.addMember ref

def ofModule (m : Module) : Listing :=
  m.uses.foldl add {}

end Listing

/-- Tables and a listing have the same items, and exactly those have rows. -/
structure Mirrors (r : References) (l : Listing) : Prop where
  types : r.types.toList = l.types
  members : r.members.toList = l.members
  typeRows : ∀ t, t ∈ r.typeRows ↔ t ∈ l.types
  memberRows : ∀ key, key ∈ r.memberRows ↔ key ∈ l.members.map MethodRef.signature

variable {l : Listing}

theorem Mirrors.addType (h : Mirrors r l) (t : TypeRef) : Mirrors (r.addType t) (l.addType t) := by
  by_cases listed : t ∈ l.types
  · have row : r.typeRows.contains t = true := (h.typeRows t).mpr listed
    rwa [References.addType, if_pos row, Listing.addType, if_pos listed]
  · have row : ¬r.typeRows.contains t = true := fun row => listed ((h.typeRows t).mp row)
    rw [References.addType, if_neg row, Listing.addType, if_neg listed]
    refine ⟨by simp [h.types], h.members, fun other => ?_, h.memberRows⟩
    rw [Std.HashMap.mem_insert, beq_iff_eq, h.typeRows, List.mem_append, List.mem_singleton,
      or_comm, eq_comm]

theorem Mirrors.addTypes (h : Mirrors r l) (ts : List TypeRef)
    : Mirrors (ts.foldl References.addType r) (ts.foldl Listing.addType l) := by
  induction ts generalizing r l with
  | nil => exact h
  | cons t ts ih => exact ih (h.addType t)

theorem Mirrors.addMember (h : Mirrors r l) (ref : MethodRef)
    : Mirrors (r.addMember ref) (l.addMember ref) := by
  by_cases listed : ref.signature ∈ l.members.map MethodRef.signature
  · have row : r.memberRows.contains ref.signature = true := (h.memberRows _).mpr listed
    rwa [References.addMember, if_pos row, Listing.addMember, if_pos listed]
  · have row : ¬r.memberRows.contains ref.signature = true :=
      fun row => listed ((h.memberRows _).mp row)
    rw [References.addMember, if_neg row, Listing.addMember, if_neg listed]
    have typed := h.addTypes ref.mentions
    refine ⟨typed.types, ?_, typed.typeRows, fun key => ?_⟩
    · rw [Array.toList_push]
      exact congrArg (· ++ [ref]) typed.members
    · rw [Std.HashMap.mem_insert, beq_iff_eq, List.map_append, List.mem_append,
        List.map_singleton, List.mem_singleton, or_comm, eq_comm]
      exact or_congr_left (typed.memberRows key)

/-- The tables of a module list what a search for earlier uses lists, by induction on the uses. -/
theorem mirrors_ofModule (m : Module) : Mirrors (ofModule m) (Listing.ofModule m) := by
  have general (uses : List Use) {r : References} {l : Listing} (h : Mirrors r l)
      : Mirrors (uses.foldl add r) (uses.foldl Listing.add l) := by
    induction uses generalizing r l with
    | nil => exact h
    | cons u uses ih =>
        refine ih ?_
        cases u with
        | type t => exact h.addType t
        | member ref => exact h.addMember ref
  rw [ofModule_eq]
  exact general m.uses ⟨rfl, rfl, by simp, by simp⟩

end References
end TapeIL
