import TapeIL.Proofs.Module.Buffer
import TapeIL.Proofs.Module.Decoded
import TapeIL.Proofs.Module.Truncation

/-! Decoding is safe. A reader by position never makes an access that is not allowed and comes to
the result of the decoder: the same module with a body in every method, or the same error.
-/

namespace TapeIL

namespace Buffer

variable {α β γ ε : Type}

------------------------------------------------------------------------------------------
-- accesses
------------------------------------------------------------------------------------------

theorem slice_eq {bytes : Bytes} {first last : Nat} (order : first ≤ last)
    (inside : last ≤ bytes.length)
    : slice bytes first last = .ok ((bytes.drop first).take (last - first)) :=
  if_pos ⟨order, inside⟩

theorem index_eq {xs : List α} {i : Nat} {a : α} (found : xs[i]? = some a)
    : index xs i = .ok a := by
  rw [index, found]

theorem word_eq {count : Nat} {bytes : Bytes} (size : bytes.length = count)
    : word count bytes = .ok (Bytes.ofLittleEndian bytes) := by
  subst size
  rw [word, slice_eq (Nat.zero_le _) (Nat.le_refl _), List.drop_zero, Nat.sub_zero,
    List.take_length]
  rfl

/-- A row is looked up only if the table has it. -/
theorem find_eq (table : TokenTable) (rows : List α) (token : UInt32)
    : find table rows token = .ok (table.find? rows.toArray token) := by
  unfold find TokenTable.find?
  cases table.row? token with
  | none => rfl
  | some row =>
      cases row with
      | zero => rfl
      | succ row =>
          by_cases inside : row < rows.length
          · have bound : ¬(row + 1 < 1 ∨ rows.length < row + 1) := by omega
            simp only [if_neg bound, Nat.add_sub_cancel,
              index_eq (List.getElem?_eq_getElem inside)]
            simp [inside]
          · simp [inside]

theorem attach_eq {op : OpCode} {kind : OperandKind} (takes : op.operandKind = kind)
    (operand : Operand)
    : attach op kind operand = .ok operand := by
  simp [attach, Instruction.create, takes]

------------------------------------------------------------------------------------------
-- byte code
------------------------------------------------------------------------------------------

/-- A computation that does not go wrong. -/
def total (x : Except ε α) : Guarded ε α :=
  ExceptT.mk (.ok x)

theorem total_bind (x : Except ε α) (k : α → Except ε β)
    : total (x >>= k) = total x >>= fun a => total (k a) := by
  cases x <;> rfl

/-- An access that is allowed hands its value on. -/
theorem guarded_ok_bind (a : α) (k : α → Guarded ε β)
    : (liftM (Except.ok a : Except Breach α) : Guarded ε α) >>= k = k a :=
  rfl

/-- The operand of an instruction is read from as many bytes as its kind takes, and is attached to
an opcode of that kind.
-/
theorem operand_eq (t : Decode.Tables) (offset : Nat) {op : OpCode} {bytes : Bytes}
    (size : bytes.length = op.operandKind.size)
    : operand t offset op bytes = total (Decode.operand t offset op bytes) := by
  have word4 (four : op.operandKind.size = 4)
      : word 4 bytes = .ok (Bytes.ofLittleEndian bytes) :=
    word_eq (size.trans four)
  cases kind : op.operandKind with
  | none =>
      simp only [operand, Decode.operand, kind, attach_eq kind]
      rfl
  | int =>
      simp only [operand, Decode.operand, kind, attach_eq kind, word4 (by rw [kind]; rfl)]
      rfl
  | slot =>
      obtain ⟨b, rfl⟩ := List.length_eq_one_iff.mp (size.trans (by rw [kind]; rfl))
      have first : index [b] 0 = .ok b := rfl
      simp only [operand, Decode.operand, kind, attach_eq kind, first, Bytes.ofLittleEndian]
      simp only [Nat.mul_zero, Nat.add_zero, Nat.toUInt8_eq, UInt8.ofNat_toNat]
      rfl
  | target =>
      simp only [operand, Decode.operand, kind, word4 (by rw [kind]; rfl)]
      rfl
  | type =>
      simp only [operand, Decode.operand, kind, attach_eq kind, word4 (by rw [kind]; rfl), find_eq,
        Array.toArray_toList, guarded_ok_bind]
      cases TokenTable.typeRef.find? t.types (Bytes.ofLittleEndian bytes).toUInt32 <;> rfl
  | method =>
      simp only [operand, Decode.operand, kind, attach_eq kind, word4 (by rw [kind]; rfl), find_eq,
        Array.toArray_toList, guarded_ok_bind]
      cases TokenTable.memberRef.find? t.members (Bytes.ofLittleEndian bytes).toUInt32 <;> rfl

/-- Byte code is read by offset as it is from its start, by induction on the bytes that are left. -/
theorem items_eq (t : Decode.Tables) (code : Bytes) (offset : Nat)
    : items t code offset = total (Decode.items t offset (code.drop offset)) := by
  induction left : code.length - offset using Nat.strong_induction_on generalizing offset with
  | _ left ih =>
      rw [items]
      by_cases inside : offset < code.length
      · rw [if_pos inside, index_eq (List.getElem?_eq_getElem inside), guarded_ok_bind,
          List.drop_eq_getElem_cons inside, Decode.items]
        cases OpCode.ofByte? code[offset] with
        | none => rfl
        | some op =>
            have length : (code.drop (offset + 1)).length = code.length - (offset + 1) :=
              List.length_drop
            by_cases short : code.length < offset + 1 + op.operandKind.size
            · have few : Bytes.take? op.operandKind.size (code.drop (offset + 1)) = none := by
                simp only [Bytes.take?, List.length_take, length, ite_eq_right_iff]
                omega
              simp only [if_pos short, few]
              rfl
            · have taken : Bytes.take? op.operandKind.size (code.drop (offset + 1))
                  = some ((code.drop (offset + 1)).take op.operandKind.size) := by
                simp only [Bytes.take?, List.length_take, length, ite_eq_left_iff]
                omega
              have size : ((code.drop (offset + 1)).take op.operandKind.size).length
                  = op.operandKind.size := by
                rw [List.length_take, length]
                omega
              have rest := ih (code.length - (offset + 1 + op.operandKind.size)) (by omega) _ rfl
              simp only [if_neg short, taken, rest, operand_eq t offset size, guarded_ok_bind,
                slice_eq (show offset + 1 ≤ offset + 1 + op.operandKind.size by omega)
                  (Nat.le_of_not_lt short), Nat.add_sub_cancel_left, List.drop_drop, total_bind]
              rfl
      · rw [if_neg inside, List.drop_eq_nil_of_le (Nat.le_of_not_lt inside), Decode.items]
        rfl

theorem code_eq_total (t : Decode.Tables) (bytes : Bytes)
    : code t bytes = total (Decode.code t bytes) := by
  rw [code, Decode.code, items_eq, List.drop_zero, total_bind]
  rfl

------------------------------------------------------------------------------------------
-- readers and decoders
------------------------------------------------------------------------------------------

/-- After a failure nothing changes any more. -/
def Sticks (b : Buffered α) : Prop :=
  ∀ r : Reader, r.error?.isSome = true → ∃ a, b.run r = .ok (a, r)

theorem Sticks.pure (a : α) : Sticks (pure a) :=
  fun _ _ => ⟨a, rfl⟩

theorem Sticks.bind {b : Buffered α} {k : α → Buffered β} (h : Sticks b)
    (next : ∀ a, Sticks (k a))
    : Sticks (b >>= k) := by
  intro r failed
  obtain ⟨a, first⟩ := h r failed
  obtain ⟨last, second⟩ := next a r failed
  refine ⟨last, ?_⟩
  rw [StateT.run_bind, first]
  exact second

/-- The reader follows the decoder. Without a failure before, it comes to the value that `f` makes
of the decoder's and to the same position, or keeps the decoder's error.
-/
structure Follows (d : Decoder α) (b : Buffered β) (f : α → β) : Prop where
  ok : ∀ {data : Bytes} {position : Nat} {a : α} {c : Cursor}, position ≤ data.length
    → d.run ⟨data.drop position, position⟩ = .ok (a, c)
    → b.run ⟨data, position, none⟩ = .ok (f a, ⟨data, c.position, none⟩)
      ∧ c.position ≤ data.length ∧ c.rest = data.drop c.position
  error : ∀ {data : Bytes} {position : Nat} {e : DecodeError}, position ≤ data.length
    → d.run ⟨data.drop position, position⟩ = .error e
    → ∃ x last, b.run ⟨data, position, none⟩ = .ok (x, ⟨data, last, some e⟩)
  sticks : Sticks b

theorem Follows.pure {f : α → β} {a : α} {b : β} (same : b = f a)
    : Follows (pure a) (pure b) f := by
  refine ⟨?_, nofun, .pure b⟩
  rintro data position _ _ inside ⟨⟩
  exact ⟨same ▸ rfl, inside, rfl⟩

/-- One after another: where the first has failed, the second changes nothing. -/
theorem Follows.bind {d : Decoder α} {k : α → Decoder β} {b : Buffered γ} {δ : Type}
    {l : γ → Buffered δ} {f : α → γ} {g : β → δ} (h : Follows d b f)
    (next : ∀ a, Follows (k a) (l (f a)) g) (sticks : ∀ x, Sticks (l x))
    : Follows (d >>= k) (b >>= l) g := by
  refine ⟨?_, ?_, h.sticks.bind sticks⟩
  · intro data position last c inside done
    rw [StateT.run_bind] at done
    obtain ⟨⟨a, middle⟩, first, second⟩ := Decode.ok_of_bind done
    obtain ⟨run, bound, rest⟩ := h.ok inside first
    have here : middle = ⟨data.drop middle.position, middle.position⟩ := by rw [← rest]
    rw [here] at second
    rw [StateT.run_bind, run]
    exact (next a).ok bound second
  · intro data position e inside failed
    rw [StateT.run_bind] at failed
    rcases Decode.error_of_bind failed with first | ⟨⟨a, middle⟩, first, second⟩
    · obtain ⟨x, last, run⟩ := h.error inside first
      obtain ⟨y, stuck⟩ := sticks x ⟨data, last, some e⟩ rfl
      refine ⟨y, last, ?_⟩
      rw [StateT.run_bind, run]
      exact stuck
    · obtain ⟨run, bound, rest⟩ := h.ok inside first
      have here : middle = ⟨data.drop middle.position, middle.position⟩ := by rw [← rest]
      rw [here] at second
      obtain ⟨x, last, after⟩ := (next a).error bound second
      refine ⟨x, last, ?_⟩
      rw [StateT.run_bind, run]
      exact after

/-- The same, where the first of the two gives the decoder's value itself. -/
theorem Follows.then {d : Decoder α} {k : α → Decoder β} {b : Buffered α} {l : α → Buffered γ}
    {g : β → γ} (h : Follows d b id) (next : ∀ a, Follows (k a) (l a) g)
    : Follows (d >>= k) (b >>= l) g :=
  h.bind next fun a => (next a).sticks

------------------------------------------------------------------------------------------
-- fields
------------------------------------------------------------------------------------------

theorem take_run_failed (n : Nat) {r : Reader} (failed : r.error?.isSome = true)
    : (take n).run r = .ok (none, r) := by
  simp only [take, StateT.run_bind, StateT.run_get, pure_bind, failed, if_true]
  rfl

theorem take_run_ok {data : Bytes} {position n : Nat} (inside : position + n ≤ data.length)
    : (take n).run ⟨data, position, none⟩
      = .ok (some ((data.drop position).take n), ⟨data, position + n, none⟩) := by
  have slice := slice_eq (Nat.le_add_right position n) inside
  rw [Nat.add_sub_cancel_left] at slice
  simp [take, Nat.not_lt.mpr inside, slice]

theorem take_run_short {data : Bytes} {position n : Nat} (short : data.length < position + n)
    : (take n).run ⟨data, position, none⟩
      = .ok (none, ⟨data, position, some (.truncated position)⟩) := by
  simp only [take, StateT.run_bind, StateT.run_get, pure_bind, Option.isSome_none,
    Bool.false_eq_true, if_false, short, if_true]
  rfl

theorem follows_take (n : Nat) : Follows (Decode.take n) (take n) some := by
  refine ⟨?_, ?_, fun r failed => ⟨none, take_run_failed n failed⟩⟩
  · intro data position a c inside done
    rw [Decode.take_run, List.length_drop] at done
    split at done
    next enough =>
      cases done
      refine ⟨take_run_ok (by omega), by simp only; omega, ?_⟩
      rw [List.drop_drop]
    next => contradiction
  · intro data position e inside failed
    rw [Decode.take_run, List.length_drop] at failed
    split at failed
    next => contradiction
    next short =>
      cases failed
      exact ⟨none, position, take_run_short (by omega)⟩

/-- A number is read from as many bytes as were taken for it; where there are too few, it is not
read at all.
-/
theorem follows_number (count : Nat)
    : Follows (do return Bytes.ofLittleEndian (← Decode.take count)) (number count) id := by
  refine ⟨?_, ?_, ?_⟩
  · intro data position n c inside done
    rw [StateT.run_bind] at done
    obtain ⟨⟨bytes, c⟩, first, second⟩ := Decode.ok_of_bind done
    cases second
    obtain ⟨run, behind⟩ := (follows_take count).ok inside first
    refine ⟨?_, behind⟩
    rw [number, StateT.run_bind, run]
    change (liftM (word count bytes) : Buffered Nat).run _ = _
    rw [word_eq (Decode.yields_take count _ _ _ first)]
    rfl
  · intro data position e inside failed
    rw [StateT.run_bind, Decode.take_run, List.length_drop] at failed
    split at failed
    next => contradiction
    next short =>
      cases failed
      refine ⟨0, position, ?_⟩
      rw [number, StateT.run_bind, take_run_short (by omega)]
      rfl
  · intro r failed
    refine ⟨0, ?_⟩
    rw [number, StateT.run_bind, take_run_failed count failed]
    rfl

/-- A value made of a number. -/
theorem Follows.ofNumber {count : Nat} (f : Nat → α)
    : Follows (do return f (Bytes.ofLittleEndian (← Decode.take count)))
        (do return f (← number count)) id := by
  have whole := (follows_number count).then (k := fun n => Pure.pure (f n))
    (l := fun n => Pure.pure (f n)) fun n => Follows.pure (f := id) rfl
  rw [bind_assoc] at whole
  exact whole

theorem follows_u8 : Follows Decode.u8 u8 id :=
  .ofNumber Nat.toUInt8

theorem follows_u16 : Follows Decode.u16 u16 id :=
  .ofNumber Nat.toUInt16

theorem follows_u32 : Follows Decode.u32 u32 id :=
  .ofNumber Nat.toUInt32

theorem follows_bytes (n : Nat) : Follows (Decode.take n) (bytes n) id := by
  have whole := (follows_take n).bind (k := Pure.pure) (l := fun x => Pure.pure (x.getD []))
    (fun bytes => Follows.pure (f := id) rfl) fun x => .pure _
  rwa [bind_pure] at whole

theorem follows_string : Follows Decode.string string id :=
  follows_u16.then fun length => follows_bytes length.toNat

/-- What is read only as long as nothing has failed. -/
theorem sticks_unlessFailed (x : β) (b : Buffered β)
    : Sticks (do if (← get).error?.isSome then return x else b) := by
  intro r failed
  refine ⟨x, ?_⟩
  simp only [StateT.run_bind, StateT.run_get, pure_bind, failed, if_true]
  rfl

theorem Follows.unlessFailed {d : Decoder α} {b : Buffered β} {f : α → β} (x : β)
    (h : Follows d b f)
    : Follows d (do if (← get).error?.isSome then return x else b) f :=
  ⟨h.ok, h.error, sticks_unlessFailed x b⟩

/-- Reading many things, by induction on how many there are. -/
theorem follows_times {d : Decoder α} {b : Buffered β} {f : α → β} (h : Follows d b f) (n : Nat)
    : Follows (Decode.times n d) (times n b) (List.map f) := by
  induction n with
  | zero => exact .pure rfl
  | succ n ih =>
      rw [Decode.times_succ]
      refine .unlessFailed [] (h.bind ?_ ?_)
      · exact fun a => ih.bind (fun rest => .pure rfl) fun rest => .pure _
      · exact fun x => ih.sticks.bind fun rest => .pure _

theorem follows_repeated {d : Decoder α} {b : Buffered α} (h : Follows d b id) (n : Nat)
    : Follows (Decode.times n d) (times n b) id := by
  simpa only [List.map_id_fun] using follows_times h n

/-- A failure is kept, and something is handed on in spite of it. -/
theorem Follows.fail (e : DecodeError) {f : α → β} (b : β)
    : Follows (throw e) (do Buffer.fail e; return b) f := by
  refine ⟨nofun, ?_, ?_⟩
  · rintro data position _ inside ⟨⟩
    exact ⟨b, position, rfl⟩
  · rintro ⟨data, position, error?⟩ failed
    obtain ⟨first, rfl⟩ := Option.isSome_iff_exists.mp failed
    exact ⟨b, rfl⟩

theorem follows_typeRef : Follows Decode.typeRef typeRef id :=
  follows_string.then fun _ => follows_string.then fun _ => .pure rfl

theorem follows_typeToken (t : Decode.Tables) : Follows (Decode.typeToken t) (typeToken t) id := by
  refine follows_u32.then fun token => ?_
  rw [find_eq, Array.toArray_toList]
  cases TokenTable.typeRef.find? t.types token with
  | some ref => exact .pure (b := ref) rfl
  | none => exact .fail (.typeToken token) TypeRef.unset

theorem follows_member (t : Decode.Tables) : Follows (Decode.member t) (member t) id :=
  (follows_typeToken t).then fun _ => follows_string.then fun _ => follows_u8.then fun _ =>
    (follows_typeToken t).then fun _ => follows_u8.then fun count =>
      (follows_repeated (follows_typeToken t) count.toNat).then fun _ => .pure rfl

theorem follows_version : Follows Decode.version version id :=
  follows_u16.then fun _ => follows_u16.then fun _ => follows_u16.then fun _ =>
    follows_u16.then fun _ => .pure rfl

end Buffer

------------------------------------------------------------------------------------------
-- drafts
------------------------------------------------------------------------------------------

open Buffer (MethodDraft TypeDraft Draft)

/-- A method with its body. -/
def MethodDef.draft (method : MethodDef) : MethodDraft :=
  { name := method.name, isStatic := method.isStatic, body? := some method.body }

def TypeDef.draft (type : TypeDef) : TypeDraft :=
  { ns := type.ns
    name := type.name
    base := type.base
    methods := type.methods.map MethodDef.draft }

/-- A module with a body in every method. -/
def Module.draft (m : Module) : Draft :=
  { name := m.name
    version := m.version
    id := m.id
    types := m.types.map TypeDef.draft
    entry := m.entry }

namespace Buffer

/-- The body of a method is read when all bytes of the method are there. -/
theorem follows_method (t : Decode.Tables)
    : Follows (Decode.method t) (method t) MethodDef.draft := by
  refine follows_string.then fun name => follows_u16.then fun flags => follows_u8.then fun count =>
    (follows_repeated (follows_typeToken t) count.toNat).then fun locals =>
      follows_u32.then fun size => (follows_bytes size.toNat).then fun bytes => .unlessFailed _ ?_
  rw [code_eq_total]
  cases decoded : Decode.code t bytes with
  | ok instructions => exact .pure rfl
  | error cause => exact .fail _ _

theorem follows_typeDef (t : Decode.Tables)
    : Follows (Decode.typeDef t) (typeDef t) TypeDef.draft :=
  follows_string.then fun _ => follows_string.then fun _ => (follows_typeToken t).then fun _ =>
    follows_u16.then fun count => (follows_times (follows_method t) count.toNat).bind
      (fun _ => .pure rfl) fun _ => .pure _

theorem follows_fields : Follows Decode.fields fields (Prod.map Module.draft id) :=
  follows_string.then fun _ => follows_version.then fun _ => (follows_bytes 16).then fun _ =>
    follows_u16.then fun count => (follows_repeated follows_typeRef count.toNat).then fun _ =>
      follows_u16.then fun count => (follows_repeated (follows_member _) count.toNat).then fun _ =>
        follows_u16.then fun count => (follows_times (follows_typeDef _) count.toNat).bind
          (fun _ => follows_u32.then fun _ => .pure rfl)
          fun _ => follows_u32.sticks.bind fun _ => .pure _

------------------------------------------------------------------------------------------
-- the entry method
------------------------------------------------------------------------------------------

/-- The places of methods in order are those that rows lead to. -/
theorem getElem?_places (type : Nat) (types : List TypeDef) (row : Nat)
    : (places type (types.map TypeDef.draft))[row]?
      = (Module.locate? types row).map fun (home, index) => (type + home, index) := by
  induction types generalizing type row with
  | nil => rfl
  | cons t rest ih =>
      have length : t.draft.methods.length = t.methods.length := List.length_map _
      rw [List.map_cons, places, Module.locate?, length]
      by_cases inside : row < t.methods.length
      · rw [if_pos inside, List.getElem?_append_left (by simpa using inside)]
        simp [inside]
      · rw [if_neg inside, List.getElem?_append_right (by simpa using inside), ih]
        simp [Function.comp_def, Nat.add_assoc, Nat.add_comm 1]

theorem entry_eq (types : List TypeDef) (token : UInt32)
    : entry (types.map TypeDef.draft) token = total (Decode.entry types token) := by
  unfold entry Decode.entry
  split
  next => rfl
  next =>
    rw [find_eq, guarded_ok_bind, TokenTable.find?]
    rcases TokenTable.methodDef.row? token with _ | row
    · rfl
    · cases row with
      | zero => rfl
      | succ row =>
          simp only [List.getElem?_toArray, getElem?_places, Nat.zero_add]
          cases Module.locate? types row <;> rfl

------------------------------------------------------------------------------------------
-- modules
------------------------------------------------------------------------------------------

/-- A failure of any field is found in the end, and without one the entry method is looked up. -/
theorem located_eq {data : Bytes} {position : Nat} (inside : position ≤ data.length)
    : (located.run ⟨data, position, none⟩).map Prod.fst
      = .ok ((Decode.located.run ⟨data.drop position, position⟩).map fun x => x.1.draft) := by
  rw [located, Decode.located, StateT.run_bind, StateT.run_bind]
  cases read : Decode.fields.run ⟨data.drop position, position⟩ with
  | error e =>
      obtain ⟨x, last, run⟩ := follows_fields.error inside read
      rw [run]
      rfl
  | ok result =>
      obtain ⟨⟨m, token⟩, c⟩ := result
      obtain ⟨run, -⟩ := follows_fields.ok inside read
      rw [run]
      change ((do
        let entry ← (entry (m.types.map TypeDef.draft) token).run
        return entry.map fun entry => { m.draft with entry }
        : Buffered (Except DecodeError Draft)).run ⟨data, c.position, none⟩).map Prod.fst
          = .ok (((do
            let entry ← Decode.entry m.types token
            return { m with entry } : Decoder Module).run c).map fun x => x.1.draft)
      rw [entry_eq]
      cases Decode.entry m.types token <;> rfl

theorem contents_eq {data : Bytes} {position : Nat} (inside : position ≤ data.length)
    : (contents.run ⟨data, position, none⟩).map Prod.fst
      = .ok ((Decode.contents.run ⟨data.drop position, position⟩).map fun x => x.1.draft) := by
  rw [Decode.contents, contents, StateT.run_bind, StateT.run_bind]
  cases first : Decode.u16.run ⟨data.drop position, position⟩ with
  | error e =>
      -- The fields are read in spite of the failure, which is still there behind them.
      obtain ⟨format, last, run⟩ := follows_u16.error inside first
      obtain ⟨⟨draft, token⟩, stuck⟩ := follows_fields.sticks ⟨data, last, some e⟩ rfl
      rw [run]
      change (located.run ⟨data, last, some e⟩).map Prod.fst = .ok (.error e)
      rw [located, StateT.run_bind, stuck]
      rfl
  | ok read =>
      obtain ⟨format, c⟩ := read
      obtain ⟨run, bound, rest⟩ := follows_u16.ok inside first
      have here : c = ⟨data.drop c.position, c.position⟩ := by rw [← rest]
      rw [run]
      change ((if (none : Option DecodeError).isNone = true ∧ format ≠ Encode.formatVersion then
          pure (.error (.unsupported format)) else located : Buffered _).run
            ⟨data, c.position, none⟩).map Prod.fst
        = .ok (((if format ≠ Encode.formatVersion then throw (.unsupported format)
            else Decode.located : Decoder _).run c).map fun x => x.1.draft)
      by_cases version : format ≠ Encode.formatVersion
      · rw [if_pos ⟨rfl, version⟩, if_pos version]
        rfl
      · rw [if_neg (version ·.2), if_neg version, located_eq bound, ← here]

/-- Reading a module by position goes wrong for no input, and gives what decoding it gives. -/
theorem decode_eq (bytes : Bytes)
    : decode bytes = total ((Module.decode bytes).map Module.draft) := by
  cases found : Bytes.after? Encode.magic bytes with
  | none =>
      rw [Module.decode_badMagic found, decode]
      split
      next => rfl
      next long =>
        rw [slice_eq (Nat.zero_le _) (Nat.le_of_not_lt long), guarded_ok_bind, List.drop_zero,
          Nat.sub_zero, if_pos]
        · rfl
        · intro same
          have whole := Bytes.after?_append Encode.magic (bytes.drop Encode.magic.length)
          nth_rewrite 2 [← same] at whole
          rw [List.take_append_drop, found] at whole
          contradiction
  | some rest =>
      have start := Bytes.eq_append_of_after? found
      have inside : Encode.magic.length ≤ bytes.length := by
        rw [start, List.length_append]
        exact Nat.le_add_right _ _
      have first : bytes.take Encode.magic.length = Encode.magic := by
        rw [start, List.take_left]
      have behind : bytes.drop Encode.magic.length = rest := by
        rw [start, List.drop_left]
      rw [Module.decode_of_after? found, decode, if_neg (Nat.not_lt.mpr inside),
        slice_eq (Nat.zero_le _) inside, guarded_ok_bind, contents_eq inside, List.drop_zero,
        Nat.sub_zero, first, behind, if_neg (not_not.mpr rfl)]
      change total ((Decode.contents.run ⟨rest, 4⟩).map fun x => x.1.draft) = _
      cases Decode.contents.run ⟨rest, 4⟩ <;> rfl

end Buffer

/-- Decoding is safe for every input. Done by position, it makes no access that is not allowed; and
it either reports an error, or gives a module with a regular body in every method and an entry that
is none or one of its methods.
-/
theorem Module.decode_safe (bytes : Bytes)
    : (∃ e, decode bytes = .error e ∧ (Buffer.decode bytes).run = .ok (.error e))
      ∨ ∃ m, decode bytes = .ok m ∧ (Buffer.decode bytes).run = .ok (.ok m.draft) ∧ m.Regular := by
  have by_position := Buffer.decode_eq bytes
  cases decoded : decode bytes with
  | error e =>
      rw [decoded] at by_position
      exact .inl ⟨e, rfl, by_position⟩
  | ok m =>
      rw [decoded] at by_position
      obtain ⟨t, made⟩ := decodedWith_of_decode decoded
      exact .inr ⟨m, rfl, by_position, made.regular⟩

end TapeIL
