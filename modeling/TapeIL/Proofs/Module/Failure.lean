import TapeIL.CommandLine.Compile
import TapeIL.Proofs.CommandLine.Action
import TapeIL.Proofs.Module.Build

/-! When modules cannot be encoded: a branch leads nowhere, or a text or a list is too long for its
length to fit into two bytes. The tables count as well, so it matters what exactly they list.
-/

namespace TapeIL

------------------------------------------------------------------------------------------
-- what the tables list
------------------------------------------------------------------------------------------

def Use.type? : Use → Option TypeRef
  | .type ref => some ref
  | .member _ => none

def Use.member? : Use → Option MethodRef
  | .type _ => none
  | .member ref => some ref

/-- The calls that do not print as an earlier one does. -/
def MethodRef.firsts : List MethodRef → List MethodRef
  | [] => []
  | ref :: rest => ref :: (firsts rest).filter fun other => other.signature ≠ ref.signature

/-- The types among uses, and those that the first call with each signature mentions. -/
def Use.referred (uses : List Use) : List TypeRef :=
  uses.filterMap Use.type?
    ++ (MethodRef.firsts (uses.filterMap Use.member?)).flatMap MethodRef.mentions

/-- One more call is a first one unless it prints as one of the others. -/
theorem MethodRef.firsts_concat (calls : List MethodRef) (ref : MethodRef)
    : firsts (calls ++ [ref])
      = if ref.signature ∈ calls.map signature then firsts calls else firsts calls ++ [ref] := by
  induction calls with
  | nil => rfl
  | cons call rest ih =>
      rw [List.cons_append, firsts, ih, firsts, List.map_cons]
      by_cases later : ref.signature ∈ rest.map signature
      · rw [if_pos later, if_pos (List.mem_cons_of_mem _ later)]
      · rw [if_neg later, List.filter_append]
        by_cases same : ref.signature = call.signature
        · simp [same]
        · simp [same, later]

theorem MethodRef.signature_mem_firsts {calls : List MethodRef} {key : Bytes}
    : key ∈ (firsts calls).map signature ↔ key ∈ calls.map signature := by
  induction calls with
  | nil => rfl
  | cons call rest ih =>
      have kept : key ∈ ((firsts rest).filter fun other => other.signature ≠ call.signature).map
          signature ↔ key ∈ (firsts rest).map signature ∧ key ≠ call.signature := by
        simp only [List.mem_map, List.mem_filter, decide_eq_true_eq]
        constructor
        · rintro ⟨ref, ⟨mem, other⟩, rfl⟩
          exact ⟨⟨ref, mem, rfl⟩, other⟩
        · rintro ⟨⟨ref, mem, rfl⟩, other⟩
          exact ⟨ref, ⟨mem, other⟩, rfl⟩
      rw [firsts, List.map_cons, List.map_cons, List.mem_cons, List.mem_cons, kept, ih]
      tauto

theorem MethodRef.nodup_firsts (calls : List MethodRef)
    : ((firsts calls).map signature).Nodup := by
  induction calls with
  | nil => exact .nil
  | cons call rest ih =>
      rw [firsts, List.map_cons, List.nodup_cons]
      refine ⟨?_, ?_⟩
      · simp
      · exact ih.sublist (List.filter_sublist.map signature)

/-- There are as many first calls as there are signatures. -/
theorem MethodRef.length_firsts (calls : List MethodRef)
    : (firsts calls).length = (calls.map signature).toFinset.card := by
  have same : (calls.map signature).toFinset = ((firsts calls).map signature).toFinset := by
    ext key
    rw [List.mem_toFinset, List.mem_toFinset, signature_mem_firsts]
  rw [same, List.toFinset_card_of_nodup (nodup_firsts calls), List.length_map]

namespace References.Listing

/-- A listing of uses: the types that these refer to, each of them once, and the first calls. -/
structure Collects (l : Listing) (uses : List Use) : Prop where
  once : l.types.Nodup
  types : ∀ t, t ∈ l.types ↔ t ∈ Use.referred uses
  members : l.members = MethodRef.firsts (uses.filterMap Use.member?)

variable {l : Listing} {uses : List Use}

theorem nodup_addType (once : l.types.Nodup) (t : TypeRef) : (l.addType t).types.Nodup := by
  unfold Listing.addType
  split
  next => exact once
  next fresh => exact List.nodup_append_comm.mp (List.nodup_cons.mpr ⟨fresh, once⟩)

theorem mem_addType {t other : TypeRef}
    : other ∈ (l.addType t).types ↔ other ∈ l.types ∨ other = t := by
  unfold Listing.addType
  split
  next listed =>
    constructor
    · exact .inl
    · rintro (mem | rfl)
      · exact mem
      · exact listed
  next => simp

/-- Types are added one after another, by induction on them. -/
theorem addTypes_types (once : l.types.Nodup) (ts : List TypeRef)
    : (ts.foldl Listing.addType l).types.Nodup
      ∧ ∀ t, t ∈ (ts.foldl Listing.addType l).types ↔ t ∈ l.types ∨ t ∈ ts := by
  induction ts generalizing l with
  | nil => exact ⟨once, by simp⟩
  | cons first ts ih =>
      obtain ⟨nodup, mem⟩ := ih (nodup_addType once first)
      refine ⟨nodup, fun t => ?_⟩
      rw [List.foldl_cons, mem, mem_addType, List.mem_cons, or_assoc]

theorem Collects.add (h : l.Collects uses) (u : Use) : (l.add u).Collects (uses ++ [u]) := by
  cases u with
  | type t =>
      have calls : (uses ++ [Use.type t]).filterMap Use.member? = uses.filterMap Use.member? :=
        List.filterMap_append.trans (List.append_nil _)
      have types : (uses ++ [Use.type t]).filterMap Use.type? = uses.filterMap Use.type? ++ [t] :=
        List.filterMap_append
      refine ⟨nodup_addType h.once t, fun other => ?_, ?_⟩
      · rw [Listing.add, mem_addType, h.types, Use.referred, Use.referred, calls, types]
        simp only [List.mem_append, List.mem_singleton, or_right_comm]
      · rw [calls, ← h.members]
        exact members_addTypes l [t]
  | member ref =>
      have calls : (uses ++ [Use.member ref]).filterMap Use.member?
          = uses.filterMap Use.member? ++ [ref] :=
        List.filterMap_append
      have types : (uses ++ [Use.member ref]).filterMap Use.type? = uses.filterMap Use.type? :=
        List.filterMap_append.trans (List.append_nil _)
      have known : ref.signature ∈ l.members.map MethodRef.signature
          ↔ ref.signature ∈ (uses.filterMap Use.member?).map MethodRef.signature := by
        rw [h.members, MethodRef.signature_mem_firsts]
      rw [Listing.add, Listing.addMember]
      by_cases listed : ref.signature ∈ l.members.map MethodRef.signature
      · have first := MethodRef.firsts_concat (uses.filterMap Use.member?) ref
        rw [if_pos (known.mp listed), ← calls] at first
        rw [if_pos listed]
        refine ⟨h.once, fun t => ?_, ?_⟩
        · rw [h.types, Use.referred, Use.referred, first, types]
        · rw [h.members, first]
      · have first := MethodRef.firsts_concat (uses.filterMap Use.member?) ref
        rw [if_neg (fun earlier => listed (known.mpr earlier)), ← calls] at first
        obtain ⟨once, mem⟩ := addTypes_types h.once ref.mentions
        rw [if_neg listed]
        refine ⟨once, fun t => ?_, ?_⟩
        · rw [mem, h.types, Use.referred, Use.referred, first, types, List.flatMap_append,
            List.flatMap_singleton, ← List.append_assoc, ← List.mem_append]
        · rw [first, ← h.members]
          exact congrArg (· ++ [ref]) (members_addTypes l ref.mentions)

/-- What the listing of a module collects, by induction on the uses from the last one. -/
theorem collects_ofModule (m : Module) : (ofModule m).Collects m.uses := by
  rw [ofModule]
  induction m.uses using List.reverseRecOn with
  | nil => exact ⟨.nil, by simp [Use.referred, MethodRef.firsts], rfl⟩
  | append_singleton uses u ih =>
      rw [List.foldl_append]
      exact ih.add u

end References.Listing

------------------------------------------------------------------------------------------
-- modules that are too large
------------------------------------------------------------------------------------------

namespace Module

/-- The calls of a module that do not print as an earlier one does. -/
def firstCalls (m : Module) : List MethodRef :=
  MethodRef.firsts m.calls

/-- The types that a module refers to: those that it extends, declares locals of or has as
operands, and those that the first call with each signature mentions.
-/
def typeRefs (m : Module) : Finset TypeRef :=
  (Use.referred m.uses).toFinset

def signatures (m : Module) : Finset Bytes :=
  (m.calls.map MethodRef.signature).toFinset

/-- A text or a list of the module, or of its tables, is too long for its length to be written. -/
inductive Oversized (m : Module) : Prop where
  | name (long : Encode.maxCount < m.name.length)
  | typeName {t : TypeDef} (mem : t ∈ m.types)
      (long : Encode.maxCount < t.ns.length ∨ Encode.maxCount < t.name.length)
  | methodName {t : TypeDef} {method : MethodDef} (mem : t ∈ m.types)
      (defined : method ∈ t.methods) (long : Encode.maxCount < method.name.length)
  | refName {ref : TypeRef} (mem : ref ∈ m.typeRefs)
      (long : Encode.maxCount < ref.ns.length ∨ Encode.maxCount < ref.name.length)
  | callName {ref : MethodRef} (mem : ref ∈ m.firstCalls)
      (long : Encode.maxCount < ref.name.length)
  | types (many : Encode.maxCount < m.types.length)
  | methods {t : TypeDef} (mem : t ∈ m.types) (many : Encode.maxCount < t.methods.length)
  | typeRefs (many : Encode.maxCount < m.typeRefs.card)
  | calls (many : Encode.maxCount < m.signatures.card)

variable {m : Module}

theorem calls_eq (m : Module) : m.calls = m.uses.filterMap Use.member? := by
  rw [calls]
  congr 1

/-- The table of types has each type that a module refers to once. -/
theorem card_typeRefs (m : Module)
    : m.typeRefs.card = (References.Listing.ofModule m).types.length := by
  have collects := References.Listing.collects_ofModule m
  have same : m.typeRefs = (References.Listing.ofModule m).types.toFinset := by
    ext t
    rw [typeRefs, List.mem_toFinset, List.mem_toFinset, collects.types]
  rw [same, List.toFinset_card_of_nodup collects.once]

theorem mem_typeRefs {ref : TypeRef}
    : ref ∈ m.typeRefs ↔ ref ∈ (References.Listing.ofModule m).types := by
  rw [typeRefs, List.mem_toFinset, (References.Listing.collects_ofModule m).types]

theorem firstCalls_eq (m : Module)
    : m.firstCalls = (References.Listing.ofModule m).members := by
  rw [firstCalls, calls_eq, (References.Listing.collects_ofModule m).members]

theorem card_signatures (m : Module)
    : m.signatures.card = (References.Listing.ofModule m).members.length := by
  rw [← firstCalls_eq, firstCalls, MethodRef.length_firsts, signatures]

/-- A module is short enough exactly if nothing of it is too long. -/
theorem short_iff : m.Short ↔ ¬m.Oversized := by
  constructor
  · intro short oversized
    cases oversized with
    | name long => exact Nat.not_le.mpr long short.name
    | typeName mem long =>
        obtain ⟨ns, name, -⟩ := short.type _ mem
        omega
    | methodName mem defined long =>
        exact Nat.not_le.mpr long ((short.type _ mem).2.2.2 _ defined)
    | refName mem long =>
        obtain ⟨ns, name⟩ := short.typeRef _ (mem_typeRefs.mp mem)
        omega
    | callName mem long => exact Nat.not_le.mpr long (short.member _ (firstCalls_eq m ▸ mem))
    | types many => exact Nat.not_le.mpr many short.types
    | methods mem many => exact Nat.not_le.mpr many (short.type _ mem).2.2.1
    | typeRefs many => exact Nat.not_le.mpr many (card_typeRefs m ▸ short.typeRefs)
    | calls many => exact Nat.not_le.mpr many (card_signatures m ▸ short.members)
  · intro fits
    exact {
      name := Nat.not_lt.mp fun long => fits (.name long)
      typeRefs := Nat.not_lt.mp fun many => fits (.typeRefs (card_typeRefs m ▸ many))
      typeRef := fun ref listed =>
        ⟨Nat.not_lt.mp fun long => fits (.refName (mem_typeRefs.mpr listed) (.inl long)),
          Nat.not_lt.mp fun long => fits (.refName (mem_typeRefs.mpr listed) (.inr long))⟩
      members := Nat.not_lt.mp fun many => fits (.calls (card_signatures m ▸ many))
      member := fun ref listed =>
        Nat.not_lt.mp fun long => fits (.callName (firstCalls_eq m ▸ listed) long)
      types := Nat.not_lt.mp fun many => fits (.types many)
      type := fun t mem =>
        ⟨Nat.not_lt.mp fun long => fits (.typeName mem (.inl long)),
          Nat.not_lt.mp fun long => fits (.typeName mem (.inr long)),
          Nat.not_lt.mp fun many => fits (.methods mem many),
          fun method defined => Nat.not_lt.mp fun long => fits (.methodName mem defined long)⟩ }

end Module

------------------------------------------------------------------------------------------
-- what fails
------------------------------------------------------------------------------------------

namespace Encode

theorem length_of_string {s bytes : Bytes} (h : Encode.string s = .ok bytes)
    : s.length ≤ Encode.maxCount := by
  unfold Encode.string at h
  split at h
  next fits => exact fits
  next => contradiction

theorem written_of_sequence {α : Type} {write : α → Except EncodeError Bytes} {xs : List α}
    {bytes : Bytes} (h : Encode.sequence write xs = .ok bytes) {x : α} (mem : x ∈ xs)
    : ∃ part, write x = .ok part := by
  obtain ⟨parts, written, -⟩ := Decode.ok_of_bind h
  exact Decode.ok_of_mapM written mem

/-- A part of the encoding that does not fail for a branch. -/
def SizesOnly {α : Type} (x : Except EncodeError α) : Prop :=
  ∀ name cause, x ≠ .error (.branch name cause)

theorem sizesOnly_ok {α : Type} (a : α) : SizesOnly (.ok a) :=
  fun _ _ h => nomatch h

theorem SizesOnly.bind {α β : Type} {x : Except EncodeError α} {k : α → Except EncodeError β}
    (h : SizesOnly x) (next : ∀ a, SizesOnly (k a))
    : SizesOnly (x >>= k) := by
  intro name cause failed
  cases x with
  | error e =>
      cases failed
      exact h name cause rfl
  | ok a => exact next a name cause failed

theorem sizesOnly_string (s : Bytes) : SizesOnly (string s) := by
  intro name cause failed
  unfold string at failed
  split at failed <;> cases failed

theorem sizesOnly_count (what : Bytes) (n : Nat) : SizesOnly (count what n) := by
  intro name cause failed
  unfold count at failed
  split at failed <;> cases failed

theorem sizesOnly_sequence {α : Type} {write : α → Except EncodeError Bytes}
    (each : ∀ x, SizesOnly (write x)) (xs : List α)
    : SizesOnly (sequence write xs) := by
  refine SizesOnly.bind ?_ fun _ => sizesOnly_ok _
  induction xs with
  | nil => exact sizesOnly_ok _
  | cons x xs ih =>
      rw [List.mapM_cons]
      exact (each x).bind fun _ => ih.bind fun _ => sizesOnly_ok _

theorem sizesOnly_typeDef (r : References) (t : TypeDef) : SizesOnly (typeDef r t) := by
  refine (sizesOnly_string _).bind fun _ => (sizesOnly_string _).bind fun _ =>
    (sizesOnly_count _ _).bind fun _ => SizesOnly.bind ?_ fun _ => sizesOnly_ok _
  refine sizesOnly_sequence (fun method => ?_) t.methods
  exact (sizesOnly_string _).bind fun _ => sizesOnly_ok _

end Encode

namespace Module

open Encode

variable {m : Module}

/-- A module that was encoded is short enough. -/
theorem short_of_encode {bytes : Bytes} (ok : m.encode = .ok bytes) : m.Short := by
  obtain ⟨-, name, typeRefCount, typeRefs, memberCount, members, typeCount, types, hname,
    htypeRefCount, htypeRefs, hmemberCount, hmembers, htypeCount, htypes, -⟩ :=
    encode_eq_ok_iff.mp ok
  have mirrors := References.mirrors_ofModule m
  exact {
    name := length_of_string hname
    typeRefs := by
      rw [← mirrors.types, Array.length_toList]
      exact (Decode.count_eq_ok htypeRefCount).1
    typeRef := fun ref listed => by
      rw [← mirrors.types] at listed
      obtain ⟨part, written⟩ := written_of_sequence htypeRefs listed
      obtain ⟨ns, hns, written⟩ := Decode.ok_of_bind written
      obtain ⟨name, hname, -⟩ := Decode.ok_of_bind written
      exact ⟨length_of_string hns, length_of_string hname⟩
    members := by
      rw [← mirrors.members, Array.length_toList]
      exact (Decode.count_eq_ok hmemberCount).1
    member := fun ref listed => by
      rw [← mirrors.members] at listed
      obtain ⟨part, written⟩ := written_of_sequence hmembers listed
      obtain ⟨name, hname, -⟩ := Decode.ok_of_bind written
      exact length_of_string hname
    types := (Decode.count_eq_ok htypeCount).1
    type := fun t listed => by
      obtain ⟨part, written⟩ := written_of_sequence htypes listed
      obtain ⟨ns, hns, written⟩ := Decode.ok_of_bind written
      obtain ⟨name, hname, written⟩ := Decode.ok_of_bind written
      obtain ⟨methodCount, few, written⟩ := Decode.ok_of_bind written
      obtain ⟨methods, hmethods, -⟩ := Decode.ok_of_bind written
      refine ⟨length_of_string hns, length_of_string hname, (Decode.count_eq_ok few).1, ?_⟩
      intro method defined
      obtain ⟨part, written⟩ := written_of_sequence hmethods defined
      obtain ⟨name, hname, -⟩ := Decode.ok_of_bind written
      exact length_of_string hname }

/-- The first method with a bad branch is the one that is reported. -/
theorem badBranch?_eq_some_iff {e : EncodeError}
    : m.badBranch? = some e
      ↔ ∃ before name method after cause, m.methods = before ++ (name, method) :: after
        ∧ (∀ named ∈ before, named.2.body.badTarget? = none)
        ∧ method.body.badTarget? = some cause ∧ e = .branch name cause := by
  rw [badBranch?, List.findSome?_eq_some_iff]
  constructor
  · rintro ⟨before, ⟨name, method⟩, after, parts, bad, good⟩
    obtain ⟨cause, found, rfl⟩ := Option.map_eq_some_iff.mp bad
    refine ⟨before, name, method, after, cause, parts, ?_, found, rfl⟩
    exact fun named mem => Option.map_eq_none_iff.mp (good named mem)
  · rintro ⟨before, name, method, after, cause, parts, good, found, rfl⟩
    refine ⟨before, (name, method), after, parts, by simp [found], ?_⟩
    exact fun named mem => Option.map_eq_none_iff.mpr (good named mem)

/-- A bad branch is reported whatever else is wrong. -/
theorem encode_of_badBranch {e : EncodeError} (bad : m.badBranch? = some e)
    : m.encode = .error e := by
  simp only [encode, bad]
  rfl

/-- Without a bad branch, only lengths are reported. -/
theorem encode_without_badBranch (good : m.badBranch? = none) : SizesOnly m.encode := by
  have typeRefs (r : References) : SizesOnly (sequence typeRef r.types.toList) := by
    refine sizesOnly_sequence (fun _ => ?_) _
    exact (sizesOnly_string _).bind fun _ => (sizesOnly_string _).bind fun _ => sizesOnly_ok _
  have members (r : References) : SizesOnly (sequence (member r) r.members.toList) :=
    sizesOnly_sequence (fun _ => (sizesOnly_string _).bind fun _ => sizesOnly_ok _) _
  have types (r : References) : SizesOnly (sequence (typeDef r) m.types) :=
    sizesOnly_sequence (sizesOnly_typeDef r) _
  simp only [encode, good]
  refine (sizesOnly_string _).bind fun _ => (sizesOnly_count _ _).bind fun _ => ?_
  refine (typeRefs _).bind fun _ => (sizesOnly_count _ _).bind fun _ => ?_
  refine (members _).bind fun _ => (sizesOnly_count _ _).bind fun _ => ?_
  exact (types _).bind fun _ => sizesOnly_ok _

theorem encode_eq_branch_iff {name : Bytes} {cause : TargetError}
    : m.encode = .error (.branch name cause)
      ↔ m.badBranch? = some (.branch name cause) := by
  constructor
  · intro failed
    cases bad : m.badBranch? with
    | none => exact absurd failed (encode_without_badBranch bad name cause)
    | some e =>
        rw [encode_of_badBranch bad] at failed
        rw [Except.error.inj failed]
  · exact encode_of_badBranch

/-- There is a bad branch in a module exactly if one of its branches leads nowhere. -/
theorem badBranch?_eq_none_iff
    : m.badBranch? = none
      ↔ ¬∃ b ∈ m.bodies, ∃ i ∈ b.code, i.op.isBranch = true ∧ b.branch? i = none := by
  constructor
  · rintro good ⟨b, mem, i, here, branch, lost⟩
    have found := branches_inside good mem here branch
    simp [lost] at found
  · intro inside
    refine badBranch?_eq_none fun b mem => Body.badTarget?_eq_none fun i here branch => ?_
    by_contra lost
    exact inside ⟨b, mem, i, here, branch, by simpa using lost⟩

theorem encode_succeeds_iff
    : (∃ bytes, m.encode = .ok bytes) ↔ m.badBranch? = none ∧ ¬m.Oversized := by
  rw [← short_iff]
  constructor
  · rintro ⟨bytes, ok⟩
    exact ⟨(encode_eq_ok_iff.mp ok).1, short_of_encode ok⟩
  · rintro ⟨good, short⟩
    exact encode_succeeds good short

/-- Every error says that the module is malformed, a bad branch after the name of its method. -/
theorem malformed_of_error (e : EncodeError)
    : (∃ what, e.message = malformed what)
      ∨ ∃ name what, e.message = text "method " ++ name ++ text ": " ++ malformed what := by
  cases e with
  | branch name cause => exact .inr ⟨name, cause.message, rfl⟩
  | longText length => exact .inl ⟨_, rfl⟩
  | tooMany what count => exact .inl ⟨_, rfl⟩

/-- A module that cannot be encoded leaves its file as it was created, with nothing in it. -/
theorem save_of_error {e : EncodeError} (failed : m.encode = .error e) {path : Bytes} {w : World}
    {files : FileSystem} (created : w.files.write path [] = .ok files) (fuel : Nat)
    : (CommandLine.Action.save path m).on fuel w = (.error (.encode e), { w with files }) := by
  simp only [CommandLine.Action.save, CommandLine.Action.on_bind, CommandLine.Action.on_write,
    created, CommandLine.Action.on_ofExcept, failed, Except.mapError]

/-- A module cannot be encoded exactly if one of its branches leads nowhere, or a text or a list of
it or of its tables is too long. The error says that the module is malformed, and nothing is written
to the file that was created for it. The first method with a bad branch is reported whatever else
is wrong with the module.
-/
theorem encode_fails_iff (m : Module)
    : ((∃ e, m.encode = .error e)
        ↔ (∃ b ∈ m.bodies, ∃ i ∈ b.code, i.op.isBranch = true ∧ b.branch? i = none)
          ∨ m.Oversized)
      ∧ (∀ e, m.encode = .error e
        → ((∃ what, e.message = malformed what)
            ∨ ∃ name what, e.message = text "method " ++ name ++ text ": " ++ malformed what)
          ∧ ∀ fuel path (w : World) files, w.files.write path [] = .ok files
            → (CommandLine.Action.save path m).on fuel w
              = (.error (.encode e), { w with files }))
      ∧ ∀ name cause, m.encode = .error (.branch name cause)
        ↔ ∃ before method after, m.methods = before ++ (name, method) :: after
          ∧ (∀ named ∈ before, named.2.body.badTarget? = none)
          ∧ method.body.badTarget? = some cause := by
  refine ⟨?_, ?_, ?_⟩
  · have succeeds := encode_succeeds_iff (m := m)
    rw [badBranch?_eq_none_iff, ← not_or] at succeeds
    rw [← not_iff_not, ← succeeds]
    cases m.encode <;> simp
  · intro e failed
    exact ⟨malformed_of_error e, fun fuel path w files created => save_of_error failed created fuel⟩
  · intro name cause
    rw [encode_eq_branch_iff, badBranch?_eq_some_iff]
    constructor
    · rintro ⟨before, _, method, after, _, parts, good, bad, same⟩
      cases same
      exact ⟨before, method, after, parts, good, bad⟩
    · rintro ⟨before, method, after, parts, good, bad⟩
      exact ⟨before, name, method, after, cause, parts, good, bad, rfl⟩

/-- A module with a name that is too long, whose second method branches to where it has no code. -/
theorem encode_fails_iff_lost
    : let lost : MethodDef :=
        { name := text "f", body := { code := #[⟨.nop, .none⟩, ⟨.br, .target (.position 7)⟩] } }
      let m : Module :=
        { name := List.replicate 65536 0
          version := {}
          id := .ofBytes []
          types := [{ ns := [], name := text "T", base := .object, methods := [.ctor, lost] }] }
      let e : EncodeError := .branch (text "T::f") (.outside 1 .br)
      let created := FileSystem.empty.addFile (text "a.dll") []
      m.Oversized ∧ m.encode = .error e
        ∧ (CommandLine.Action.save (text "a.dll") m).on 0 { files := .empty }
          = (.error (.encode e), { files := created }) := by
  intro lost m e created
  obtain ⟨-, fails, reports⟩ := encode_fails_iff m
  have failed : m.encode = .error e := by
    refine (reports _ _).mpr ⟨[(text "T::.ctor", .ctor)], lost, [], rfl, ?_, by decide⟩
    intro named mem
    rw [List.mem_singleton.mp mem]
    decide
  refine ⟨.name ?_, failed, ?_⟩
  · rw [List.length_replicate]
    decide
  · exact (fails e failed).2 0 (text "a.dll") { files := .empty } created rfl

end Module
end TapeIL
