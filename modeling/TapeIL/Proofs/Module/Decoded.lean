import TapeIL.Proofs.Module.RoundTrip

/-! What decoding makes of any bytes: valid opcodes with operands of their kinds, branches to
instructions of the same body, and an entry that is a method of the module. All of it can be
encoded again.
-/

namespace TapeIL

variable {α β : Type}

/-- A body with few locals, valid opcodes, operands of the kinds these take, and branches that all
lead to instructions of the body.
-/
structure Body.Regular (b : Body) : Prop where
  locals : b.locals.length ≤ 255
  valid : ∀ i ∈ b.code, i.op.isValid = true
  kinded : ∀ i ∈ b.code, i.operand.kind? = some i.op.operandKind
  targets : b.badTarget? = none

/-- A module whose bodies are regular, and whose entry is none or one of its methods. -/
structure Module.Regular (m : Module) : Prop where
  bodies : ∀ b ∈ m.bodies, b.Regular
  entry : m.entry = .none ∨ ∃ named ∈ m.methods, m.entryMethod? = some named

------------------------------------------------------------------------------------------
-- the values of decoders
------------------------------------------------------------------------------------------

namespace Decode

/-- Every value that the decoder gives has the property. -/
def Yields (d : Decoder α) (P : α → Prop) : Prop :=
  ∀ (c last : Cursor) (a : α), d.run c = .ok (a, last) → P a

theorem Yields.pure {P : α → Prop} {a : α} (h : P a) : Yields (pure a) P := by
  rintro c last _ ⟨⟩
  exact h

theorem Yields.throw {P : α → Prop} (e : DecodeError) : Yields (throw e : Decoder α) P :=
  nofun

theorem Yields.any (d : Decoder α) : Yields d fun _ => True :=
  fun _ _ _ _ => trivial

theorem Yields.bind {d : Decoder α} {k : α → Decoder β} {P : α → Prop} {Q : β → Prop}
    (h : Yields d P) (next : ∀ a, P a → Yields (k a) Q)
    : Yields (d >>= k) Q := by
  intro c last b done
  rw [StateT.run_bind] at done
  obtain ⟨⟨a, middle⟩, first, second⟩ := ok_of_bind done
  exact next a (h c middle a first) middle last b second

/-- What follows a decoder, whatever value that gives. -/
theorem Yields.after {d : Decoder α} {k : α → Decoder β} {Q : β → Prop}
    (next : ∀ a, Yields (k a) Q)
    : Yields (d >>= k) Q :=
  (Yields.any d).bind fun a _ => next a

theorem yields_lift {P : α → Prop} {x : Except DecodeError α} (h : ∀ a, x = .ok a → P a)
    : Yields (liftM x : Decoder α) P := by
  cases x with
  | error e => exact .throw e
  | ok a => exact .pure (h a rfl)

theorem yields_take (n : Nat) : Yields (take n) fun bytes => bytes.length = n := by
  rintro ⟨rest, position⟩ last bytes done
  rw [take_run] at done
  split at done
  next enough =>
    cases done
    simp [enough]
  next => contradiction

/-- What every item has, all items of a list have, by induction on their number. -/
theorem yields_times {item : Decoder α} {P : α → Prop} (h : Yields item P) (n : Nat)
    : Yields (times n item) fun xs => xs.length = n ∧ ∀ x ∈ xs, P x := by
  induction n with
  | zero => exact .pure ⟨rfl, by simp⟩
  | succ n ih =>
      rw [times_succ]
      refine h.bind fun a first => ih.bind fun rest ⟨length, each⟩ => .pure ⟨?_, ?_⟩
      · rw [List.length_cons, length]
      · exact List.forall_mem_cons.mpr ⟨first, each⟩

------------------------------------------------------------------------------------------
-- byte code
------------------------------------------------------------------------------------------

/-- The number of bytes an item was read from. -/
def Item.size (x : Item) : Nat :=
  1 + x.op.operandKind.size

/-- An item with a valid opcode and either an operand of the opcode's kind, or a branch over a
distance of four bytes. Calls are to members of the table.
-/
structure Item.Sound (t : Tables) (x : Item) : Prop where
  valid : x.op.isValid = true
  operand : ∀ o, x.operand = .inl o
    → o.kind? = some x.op.operandKind ∧ x.op.isBranch = false
      ∧ ∀ ref, o = .method ref → ref ∈ t.members
  target : ∀ place, x.operand = .inr place
    → x.op.isBranch = true ∧ ∃ distance : Int32, place = x.offset + x.size + distance.toInt

theorem valid_of_ofByte? {b : UInt8} {op : OpCode} (h : OpCode.ofByte? b = some op)
    : op.isValid = true := by
  have all : ∀ op ∈ OpCode.all, op.isValid = true := by decide
  exact all op (List.mem_of_find?_eq_some h)

theorem mem_of_find? {table : TokenTable} {rows : Array α} {token : UInt32} {a : α}
    (h : table.find? rows token = some a)
    : a ∈ rows := by
  unfold TokenTable.find? at h
  split at h
  · exact Array.mem_of_getElem? h
  · contradiction

/-- The operand that is read from as many bytes as the opcode takes is of the opcode's kind. -/
theorem sound_operand {t : Tables} {offset : Nat} {op : OpCode} {bytes : Bytes}
    {operand : Operand ⊕ Int} (valid : op.isValid = true)
    (size : bytes.length = op.operandKind.size)
    (h : Decode.operand t offset op bytes = .ok operand)
    : Item.Sound t { offset, op, operand } := by
  unfold Decode.operand at h
  cases kind : op.operandKind with
  | none | int | slot =>
      simp only [kind] at h
      cases h
      exact ⟨valid, by simp [Operand.kind?, OpCode.isBranch, kind], fun _ same => (by cases same)⟩
  | target =>
      simp only [kind] at h
      cases h
      refine ⟨valid, fun _ same => (by cases same), ?_⟩
      intro place same
      cases same
      refine ⟨by simp [OpCode.isBranch, kind], (Bytes.ofLittleEndian bytes).toUInt32.toInt32, ?_⟩
      simp only [Item.size, size]
      push_cast
      ring
  | type =>
      simp only [kind] at h
      split at h
      · cases h
        exact ⟨valid, by simp [Operand.kind?, OpCode.isBranch, kind], fun _ same => (by cases same)⟩
      · contradiction
  | method =>
      simp only [kind] at h
      split at h
      next found =>
        cases h
        refine ⟨valid, ?_, fun _ same => (by cases same)⟩
        simpa [Operand.kind?, OpCode.isBranch, kind] using mem_of_find? found
      next => contradiction

/-- The items of byte code: all of them sound, each at the offset that the sizes of those before it
add up to, and together as long as the byte code.
-/
structure Laid (t : Tables) (offset : Nat) (bytes : Bytes) (xs : List Item) : Prop where
  sound : ∀ x ∈ xs, x.Sound t
  offsets : ∀ (index : Nat) (x : Item), xs[index]? = some x
    → x.offset = offset + ((xs.map Item.size).take index).sum
  length : (xs.map Item.size).sum = bytes.length

/-- Byte code is read item by item, by recursion as the reader's. -/
theorem laid_items {t : Tables} {offset : Nat} {bytes : Bytes} {xs : List Item}
    (h : items t offset bytes = .ok xs)
    : Laid t offset bytes xs := by
  fun_induction items t offset bytes generalizing xs with
  | case1 offset =>
      cases h
      exact ⟨by simp, by simp, rfl⟩
  | case2 | case3 => contradiction
  | case4 offset b rest op opcode bytes taken ih =>
      obtain ⟨operand, read, h⟩ := ok_of_bind h
      obtain ⟨more, tail, h⟩ := ok_of_bind h
      cases h
      obtain ⟨sound, offsets, length⟩ := ih tail
      have size : bytes.length = op.operandKind.size ∧ op.operandKind.size ≤ rest.length := by
        simp only [Bytes.take?] at taken
        split at taken
        next enough =>
          cases taken
          exact ⟨enough, by simpa using enough⟩
        next => contradiction
      have first := sound_operand (valid_of_ofByte? opcode) size.1 read
      refine ⟨List.forall_mem_cons.mpr ⟨first, sound⟩, ?_, ?_⟩
      · intro index x here
        cases index with
        | zero =>
            cases here
            simp
        | succ index =>
            rw [offsets index x here]
            simp [Item.size, Nat.add_assoc]
      · simp only [List.map_cons, List.sum_cons, length, Item.size, List.length_drop,
          List.length_cons]
        omega

/-- Steps that succeed on all of a list give one value for each of its items. -/
theorem forall₂_of_mapM {ε : Type} {f : α → Except ε β} {xs : List α} {ys : List β}
    (h : xs.mapM f = .ok ys)
    : List.Forall₂ (fun x y => f x = .ok y) xs ys := by
  induction xs generalizing ys with
  | nil =>
      cases h
      exact .nil
  | cons x xs ih =>
      rw [List.mapM_cons] at h
      obtain ⟨y, first, h⟩ := ok_of_bind h
      obtain ⟨rest, later, h⟩ := ok_of_bind h
      cases h
      exact .cons first (ih later)

/-- What an item is resolved to: the operand it has, or the position found for its offset. -/
theorem resolve_eq_ok {positions : Std.HashMap Nat Nat} {x : Item} {i : Instruction}
    (h : resolve positions x = .ok i)
    : i.op = x.op
      ∧ (x.operand = .inl i.operand
        ∨ ∃ (place index : Nat), x.operand = .inr place ∧ positions[place]? = some index
          ∧ i.operand = .target (.position index)) := by
  unfold resolve at h
  split at h
  next operand plain =>
    cases h
    exact ⟨rfl, .inl plain⟩
  next target branch =>
    split at h
    next place =>
      split at h
      next index found =>
        cases h
        exact ⟨rfl, .inr ⟨place, index, branch, found, rfl⟩⟩
      next => contradiction
    next => contradiction

/-- A position is found only for an offset of a body at which there is an instruction. -/
theorem offsetAt_of_position {b : Body} {place index : Nat}
    (found : (Std.HashMap.ofList ((List.range' 0 b.size).map b.offsetAt).zipIdx)[place]?
      = some index)
    : index < b.size ∧ b.offsetAt index = place := by
  have listed := Std.HashMap.mem_iff_isSome_getElem?.mpr (Option.isSome_of_mem found)
  rw [Std.HashMap.mem_ofList, List.zipIdx_map_fst, List.contains_iff_mem, List.mem_map] at listed
  obtain ⟨other, inside, rfl⟩ := listed
  have inside : other < b.size := by simpa using inside
  rw [positions_offsetAt inside] at found
  cases found
  exact ⟨inside, rfl⟩

/-- What is known of the instruction at a position of a body that was read with the tables: a
branch leads to an instruction that a displacement can reach, and any other instruction has an
operand of its opcode's kind.
-/
structure DecodedAt (t : Tables) (b : Body) (index : Nat) (i : Instruction) : Prop where
  valid : i.op.isValid = true
  plain : i.op.isBranch = false
    → i.operand.kind? = some i.op.operandKind ∧ ∀ ref, i.operand = .method ref → ref ∈ t.members
  branch : i.op.isBranch = true
    → ∃ (target : Nat) (distance : Int32), i.operand = .target (.position target)
      ∧ target < b.size
      ∧ (b.offsetAt target : Int) = b.offsetAt (index + 1) + distance.toInt

section Positions

variable {t : Tables} {b : Body} {index : Nat} {i : Instruction}

theorem DecodedAt.branch? (h : DecodedAt t b index i) (branch : i.op.isBranch = true)
    : ∃ (target : Nat) (distance : Int32), b.branch? i = some target
      ∧ (b.offsetAt target : Int) = b.offsetAt (index + 1) + distance.toInt := by
  obtain ⟨target, distance, operand, inside, reached⟩ := h.branch branch
  refine ⟨target, distance, ?_, reached⟩
  simp [Body.branch?, Instruction.target?, operand, Body.resolve?, inside]

/-- The operand is of the opcode's kind, by cases on whether the instruction branches. -/
theorem DecodedAt.kinded (h : DecodedAt t b index i)
    : i.operand.kind? = some i.op.operandKind := by
  cases branch : i.op.isBranch with
  | false => exact (h.plain branch).1
  | true =>
      obtain ⟨target, -, operand, -, -⟩ := h.branch branch
      have kind : i.op.operandKind = .target := by simpa [OpCode.isBranch] using branch
      rw [operand, kind]
      rfl

theorem DecodedAt.calls (h : DecodedAt t b index i) {ref : MethodRef}
    (call : i.operand = .method ref)
    : ref ∈ t.members := by
  cases branch : i.op.isBranch with
  | false => exact (h.plain branch).2 ref call
  | true =>
      obtain ⟨target, -, operand, -, -⟩ := h.branch branch
      rw [call] at operand
      contradiction

end Positions

/-- A sound item at the offset of an instruction makes that instruction what it has to be. -/
theorem decodedAt_of_item {t : Tables} {b : Body} {index : Nat} {x : Item} {i : Instruction}
    (sound : x.Sound t) (here : b.code[index]? = some i) (offset : x.offset = b.offsetAt index)
    (done : resolve (Std.HashMap.ofList ((List.range' 0 b.size).map b.offsetAt).zipIdx) x = .ok i)
    : DecodedAt t b index i := by
  obtain ⟨op, plain | ⟨place, target, leads, found, operand⟩⟩ := resolve_eq_ok done
  · obtain ⟨kinded, straight, calls⟩ := sound.operand _ plain
    refine ⟨op ▸ sound.valid, fun _ => ⟨op ▸ kinded, calls⟩, fun branch => ?_⟩
    rw [op, straight] at branch
    contradiction
  · obtain ⟨branch, distance, reached⟩ := sound.target _ leads
    refine ⟨op ▸ sound.valid, fun straight => ?_, fun _ => ?_⟩
    · rw [op, branch] at straight
      contradiction
    · obtain ⟨inside, rfl⟩ := offsetAt_of_position found
      refine ⟨target, distance, operand, inside, ?_⟩
      rw [reached, offset, Body.offsetAt_succ here, Item.size, Instruction.size, op]
      push_cast
      rfl

/-- Reading byte code gives instructions that are laid out as it is: the offset of each item is the
offset of its instruction, so a branch leads where its displacement says.
-/
theorem decodedAt_code {t : Tables} {bytes : Bytes} {instructions : List Instruction}
    (h : code t bytes = .ok instructions) (locals : List TypeRef)
    : let b : Body := { locals, code := instructions.toArray }
      (∀ index i, b.code[index]? = some i → DecodedAt t b index i)
      ∧ b.codeSize = bytes.length := by
  intro b
  obtain ⟨xs, read, h⟩ := ok_of_bind h
  have laid := laid_items read
  have resolved := forall₂_of_mapM h
  have sizes : xs.map Item.size = instructions.map Instruction.size := by
    refine List.forall₂_eq_eq_eq ▸ List.forall₂_map_left_iff.mpr (List.forall₂_map_right_iff.mpr ?_)
    refine resolved.imp fun x i done => ?_
    rw [Item.size, Instruction.size, (resolve_eq_ok done).1]
  have offset : ∀ index x, xs[index]? = some x → x.offset = b.offsetAt index := by
    intro index x here
    rw [laid.offsets index x here, sizes, ← List.map_take, Nat.zero_add]
    rfl
  have count : xs.length = b.size := resolved.length_eq
  have places : xs.map Item.offset = (List.range' 0 b.size).map b.offsetAt := by
    refine List.ext_getElem (by simpa using count) fun index inside _ => ?_
    have here : index < xs.length := by simpa using inside
    simpa using offset index _ (List.getElem?_eq_getElem here)
  rw [places] at resolved
  refine ⟨fun index i here => ?_, ?_⟩
  · have inside : index < b.size := (Array.getElem?_eq_some_iff.mp here).1
    have item : xs[index]? = some xs[index] := List.getElem?_eq_getElem (count ▸ inside)
    obtain ⟨_, same⟩ := List.getElem?_eq_some_iff.mp (List.getElem?_toArray ▸ here)
    have done := (List.forall₂_iff_get.mp resolved).2 index (count ▸ inside) inside
    rw [List.get_eq_getElem, List.get_eq_getElem, same] at done
    exact decodedAt_of_item (laid.sound _ (List.mem_of_getElem? item)) here (offset index _ item)
      done
  · rw [Body.codeSize_eq, ← laid.length, sizes]
    rfl

/-- A body that was read with the tables. -/
structure Decoded (t : Tables) (b : Body) : Prop where
  regular : b.Regular
  near : b.Near
  size : b.codeSize < 2 ^ 32
  calls : ∀ i ∈ b.code, ∀ ref, i.operand = .method ref → ref ∈ t.members

theorem decoded_of_positions {t : Tables} {b : Body}
    (each : ∀ index i, b.code[index]? = some i → DecodedAt t b index i)
    (few : b.locals.length ≤ 255) (small : b.codeSize < 2 ^ 32)
    : Decoded t b := by
  have known : ∀ i ∈ b.code, ∃ index, DecodedAt t b index i := by
    intro i mem
    obtain ⟨index, here⟩ := Array.mem_iff_getElem?.mp mem
    exact ⟨index, each index i here⟩
  have inside : ∀ i ∈ b.code, i.op.isBranch = true → (b.branch? i).isSome = true := by
    intro i mem branch
    obtain ⟨index, here⟩ := known i mem
    obtain ⟨target, -, found, -⟩ := here.branch? branch
    rw [found]
    rfl
  refine ⟨⟨few, ?_, ?_, Body.badTarget?_eq_none inside⟩, ?_, small, ?_⟩
  · intro i mem
    obtain ⟨index, here⟩ := known i mem
    exact here.valid
  · intro i mem
    obtain ⟨index, here⟩ := known i mem
    exact here.kinded
  · intro index i target here branch found
    obtain ⟨other, distance, leads, reached⟩ := (each index i here).branch? branch
    obtain rfl := Option.some.inj (leads.symm.trans found)
    have low := distance.le_toInt
    have high := distance.toInt_lt
    omega
  · intro i mem ref call
    obtain ⟨index, here⟩ := known i mem
    exact here.calls call

------------------------------------------------------------------------------------------
-- modules
------------------------------------------------------------------------------------------

theorem yields_method (t : Tables) : Yields (method t) fun m => Decoded t m.body := by
  refine .after fun name => .after fun flags => .after fun count =>
    (yields_times (.any _) count.toNat).bind fun locals ⟨length, _⟩ =>
      .after fun size => (yields_take size.toNat).bind fun bytes taken => ?_
  split
  next instructions read =>
    obtain ⟨each, sized⟩ := decodedAt_code read locals
    have few := count.toNat_lt
    have small := size.toNat_lt
    exact .pure (decoded_of_positions each (by simp only; omega) (by simp only; omega))
  next => exact .throw _

theorem yields_typeDef (t : Tables)
    : Yields (typeDef t) fun type => ∀ m ∈ type.methods, Decoded t m.body :=
  .after fun _ => .after fun _ => .after fun _ => .after fun count =>
    (yields_times (yields_method t) count.toNat).bind fun _ ⟨_, each⟩ => .pure each

theorem yields_member (t : Tables) : Yields (member t) fun ref => ref.params.length ≤ 255 := by
  refine .after fun _ => .after fun _ => .after fun _ => .after fun _ => .after fun count =>
    (yields_times (.any _) count.toNat).bind fun params ⟨length, _⟩ => .pure ?_
  have few := count.toNat_lt
  simp only
  omega

end Decode

namespace Module

open Decode

/-- A row that is located is the row of the method found there, by induction on the types. -/
theorem rowOf_locate? {types : List TypeDef} {row type index : Nat}
    (h : locate? types row = some (type, index))
    : ∃ t method, types[type]? = some t ∧ t.methods[index]? = some method
      ∧ rowOf types type index = row + 1 := by
  induction types generalizing row type with
  | nil => contradiction
  | cons first rest ih =>
      rw [locate?] at h
      split at h
      next inside =>
        cases h
        exact ⟨first, _, rfl, List.getElem?_eq_getElem inside, by simp [rowOf]⟩
      next outside =>
        obtain ⟨⟨other, place⟩, located, moved⟩ := Option.map_eq_some_iff.mp h
        cases moved
        obtain ⟨t, method, here, found, number⟩ := ih located
        refine ⟨t, method, here, found, ?_⟩
        rw [rowOf_succ, number]
        omega

theorem row?_lt {table : TokenTable} {token : UInt32} {row : Nat} (h : table.row? token = some row)
    : row < 2 ^ 24 := by
  unfold TokenTable.row? at h
  split at h
  next =>
    cases h
    rw [UInt32.toNat_and, show (0x00FFFFFF : UInt32).toNat = 2 ^ 24 - 1 from rfl,
      Nat.and_two_pow_sub_one_eq_mod]
    exact Nat.mod_lt _ (Nat.two_pow_pos 24)
  next => contradiction

/-- An entry that was read is none, or the method in a row of three bytes. -/
theorem entry_eq_ok {types : List TypeDef} {token : UInt32} {entry : Entry}
    (h : Decode.entry types token = .ok entry)
    : entry = .none
      ∨ ∃ row type index, entry = .method type index ∧ row + 1 < 2 ^ 24
        ∧ locate? types row = some (type, index) := by
  unfold Decode.entry at h
  split at h
  next =>
    cases h
    exact .inl rfl
  next =>
    split at h
    next row found =>
      split at h
      next type index located =>
        cases h
        exact .inr ⟨row, type, index, rfl, row?_lt found, located⟩
      next => contradiction
    next => contradiction

/-- What is known of a module that was read with the tables. -/
structure DecodedWith (t : Tables) (m : Module) : Prop where
  members : ∀ ref ∈ t.members, ref.params.length ≤ 255
  bodies : ∀ b ∈ m.bodies, Decoded t b
  entry : m.entry = .none
    ∨ ∃ row type index, m.entry = .method type index ∧ row + 1 < 2 ^ 24
      ∧ locate? m.types row = some (type, index)

theorem yields_fields
    : Yields fields fun (m, _) => ∃ t : Tables,
        (∀ ref ∈ t.members, ref.params.length ≤ 255) ∧ ∀ b ∈ m.bodies, Decoded t b := by
  refine .after fun name => .after fun version => .after fun id => .after fun typeCount =>
    .after fun typeRefs => .after fun memberCount =>
      (yields_times (yields_member _) memberCount.toNat).bind fun members ⟨_, few⟩ =>
        .after fun count => (yields_times (yields_typeDef _) count.toNat).bind
          fun types ⟨_, each⟩ => .after fun token => .pure ?_
  refine ⟨{ types := typeRefs.toArray, members := members.toArray }, ?_, ?_⟩
  · intro ref mem
    exact few ref (Array.mem_toList_iff.mpr mem)
  · intro b mem
    obtain ⟨type, listed, mem⟩ := List.mem_flatMap.mp mem
    obtain ⟨method, inside, rfl⟩ := List.mem_map.mp mem
    exact each type listed method inside

theorem yields_located : Yields located fun m => ∃ t, DecodedWith t m :=
  yields_fields.bind fun _ ⟨t, members, bodies⟩ =>
    (yields_lift fun _ read => entry_eq_ok read).bind fun _ known =>
      .pure ⟨t, members, bodies, known⟩

theorem yields_contents : Yields contents fun m => ∃ t, DecodedWith t m := by
  refine .after fun format => ?_
  split
  · exact (Yields.throw (P := fun _ => False) _).bind nofun
  · exact yields_located

section Known

variable {t : Tables} {m : Module}

/-- An entry that was read is a method of the module. -/
theorem DecodedWith.entryMethod (h : DecodedWith t m)
    : m.entry = .none ∨ ∃ named ∈ m.methods, m.entryMethod? = some named := by
  refine h.entry.imp_right ?_
  rintro ⟨row, type, index, entry, -, located⟩
  obtain ⟨t, method, here, found, -⟩ := rowOf_locate? located
  refine ⟨(t.methodName method, method), ?_, ?_⟩
  · refine List.mem_flatMap.mpr ⟨t, List.mem_of_getElem? here, ?_⟩
    exact List.mem_map.mpr ⟨method, List.mem_of_getElem? found, rfl⟩
  · simp [entryMethod?, entry, here, found]

theorem DecodedWith.regular (h : DecodedWith t m) : m.Regular :=
  ⟨fun b mem => (h.bodies b mem).regular, h.entryMethod⟩

/-- The method references of a module are operands of its calls. -/
theorem call_of_mem_calls {ref : MethodRef} (mem : ref ∈ m.calls)
    : ∃ b ∈ m.bodies, ∃ i ∈ b.code, i.op.operandKind = .method ∧ i.methodOperand = ref := by
  obtain ⟨type, listed, use⟩ := List.mem_flatMap.mp (mem_calls.mp mem)
  rcases List.mem_cons.mp use with base | use
  · contradiction
  · obtain ⟨method, inside, use⟩ := List.mem_flatMap.mp use
    rcases List.mem_append.mp use with local_ | use
    · simp at local_
    · obtain ⟨i, here, use⟩ := List.mem_flatMap.mp use
      exact ⟨_, mem_bodies listed inside, i, Array.mem_toList_iff.mp here,
        Instruction.call_of_uses use⟩

theorem DecodedWith.storable (h : DecodedWith t m) : m.Storable where
  valid b mem := (h.bodies b mem).regular.valid
  locals b mem := (h.bodies b mem).regular.locals
  size b mem := (h.bodies b mem).size
  near b mem := (h.bodies b mem).near
  params := by
    intro ref mem
    obtain ⟨b, listed, i, here, kind, rfl⟩ := call_of_mem_calls mem
    have kinded := (h.bodies b listed).regular.kinded i here
    cases operand : i.operand with
    | method ref =>
        have found := (h.bodies b listed).calls i here ref operand
        simpa [Instruction.methodOperand, Instruction.method?, operand] using h.members ref found
    | _ => simp [operand, kind, Operand.kind?] at kinded
  entry := by
    rcases h.entry with none | ⟨row, type, index, entry, small, located⟩
    · simp [entryRow, none]
    · obtain ⟨t, method, here, found, number⟩ := rowOf_locate? located
      simpa [entryRow, entryMethod?, entry, here, found, number] using small

end Known

theorem decodedWith_of_decode {bytes : Bytes} {m : Module} (h : decode bytes = .ok m)
    : ∃ t, DecodedWith t m := by
  unfold decode decodeRest at h
  split at h
  next rest _ =>
    cases run : contents.run { rest, position := Encode.magic.length } with
    | error e => simp [run, Except.map] at h
    | ok result =>
        obtain rfl : result.1 = m := by simpa [run, Except.map] using h
        exact yields_contents _ result.2 result.1 run
  next => contradiction

end Module
end TapeIL
