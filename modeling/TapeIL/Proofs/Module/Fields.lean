import TapeIL.Module.Decode
import TapeIL.Proofs.Bytes

/-! Reading back what was written: every field, read from a place where its bytes stand, gives the
field's value and leaves the cursor right behind those bytes.
-/

namespace TapeIL

variable {α β : Type}

------------------------------------------------------------------------------------------
-- numbers
------------------------------------------------------------------------------------------

namespace Bytes

@[simp] theorem length_littleEndian (count n : Nat) : (littleEndian count n).length = count := by
  induction count generalizing n with
  | zero => rfl
  | succ count ih => simp [littleEndian, ih]

/-- A number comes back up to what its bytes have no room for, by induction on their count. -/
theorem ofLittleEndian_littleEndian (count n : Nat)
    : ofLittleEndian (littleEndian count n) = n % 256 ^ count := by
  induction count generalizing n with
  | zero => simp [littleEndian, ofLittleEndian, Nat.mod_one]
  | succ count ih =>
      rw [littleEndian, ofLittleEndian, ih, Nat.pow_succ', Nat.mod_mul]
      rfl

theorem ofLittleEndian_u8 (n : Nat)
    : (ofLittleEndian (Encode.u8 n)).toUInt8 = UInt8.ofNat n := by
  rw [Encode.u8, ofLittleEndian_littleEndian]
  exact UInt8.ofNat_mod_size

theorem ofLittleEndian_u16 (n : UInt16) : (ofLittleEndian (Encode.u16 n)).toUInt16 = n := by
  simp [Encode.u16, ofLittleEndian_littleEndian]

theorem ofLittleEndian_u32 (n : UInt32) : (ofLittleEndian (Encode.u32 n)).toUInt32 = n := by
  simp [Encode.u32, ofLittleEndian_littleEndian]

theorem take?_append (bytes rest : Bytes) : take? bytes.length (bytes ++ rest) = some bytes := by
  simp [take?]

end Bytes

namespace Decode

/-- Wherever the given bytes stand, the decoder reads them all and gives the value. -/
def Reads (d : Decoder α) (bytes : Bytes) (a : α) : Prop :=
  ∀ rest position, d.run ⟨bytes ++ rest, position⟩ = .ok (a, ⟨rest, position + bytes.length⟩)

theorem Reads.pure (a : α) : Reads (pure a) [] a :=
  fun _ _ => rfl

/-- One field after another. -/
theorem Reads.bind {d : Decoder α} {k : α → Decoder β} {first second : Bytes} {a : α} {b : β}
    (h : Reads d first a) (next : Reads (k a) second b)
    : Reads (d >>= k) (first ++ second) b := by
  intro rest position
  rw [StateT.run_bind, List.append_assoc, h, List.length_append, ← Nat.add_assoc]
  exact next rest _

/-- The last field: what follows it reads nothing more. -/
theorem Reads.finish {d : Decoder α} {k : α → Decoder β} {bytes : Bytes} {a : α} {b : β}
    (h : Reads d bytes a) (next : Reads (k a) [] b)
    : Reads (d >>= k) bytes b := by
  simpa using h.bind next

theorem Reads.map {d : Decoder α} {f : α → β} {bytes : Bytes} {a : α} (h : Reads d bytes a)
    : Reads (do return f (← d)) bytes (f a) :=
  h.finish (Reads.pure (f a))

/-- Taking bytes succeeds if there are enough of them. -/
theorem take_run (n : Nat) (rest : Bytes) (position : Nat)
    : (take n).run ⟨rest, position⟩
      = if n ≤ rest.length then .ok (rest.take n, ⟨rest.drop n, position + n⟩)
        else .error (.truncated position) := by
  by_cases enough : n ≤ rest.length
  · have taken : Bytes.take? n rest = some (rest.take n) := by simp [Bytes.take?, enough]
    simp [take, taken, enough]
    rfl
  · have short : Bytes.take? n rest = none := by simp [Bytes.take?, enough]
    simp [take, short, enough]
    rfl

theorem reads_take (bytes : Bytes) : Reads (take bytes.length) bytes bytes := by
  intro rest position
  simp [take_run]

theorem reads_u8 (n : Nat) : Reads u8 (Encode.u8 n) (UInt8.ofNat n) := by
  rw [← Bytes.ofLittleEndian_u8]
  exact (reads_take (Encode.u8 n)).map

theorem reads_u16 (n : UInt16) : Reads u16 (Encode.u16 n) n := by
  have read := (reads_take (Encode.u16 n)).map
    (f := fun bytes => (Bytes.ofLittleEndian bytes).toUInt16)
  rwa [Bytes.ofLittleEndian_u16] at read

theorem reads_u32 (n : UInt32) : Reads u32 (Encode.u32 n) n := by
  have read := (reads_take (Encode.u32 n)).map
    (f := fun bytes => (Bytes.ofLittleEndian bytes).toUInt32)
  rwa [Bytes.ofLittleEndian_u32] at read

------------------------------------------------------------------------------------------
-- texts and lists
------------------------------------------------------------------------------------------

theorem toNat_toUInt16 {n : Nat} (fits : n ≤ Encode.maxCount) : n.toUInt16.toNat = n := by
  rw [Nat.toUInt16_eq, UInt16.toNat_ofNat_of_lt']
  exact Nat.lt_succ_of_le fits

/-- A text that can be written fits its length, and is read back. -/
theorem reads_string {s bytes : Bytes} (h : Encode.string s = .ok bytes)
    : Reads string bytes s := by
  unfold Encode.string at h
  split at h
  next fits =>
    cases h
    refine (reads_u16 _).bind ?_
    rw [toNat_toUInt16 fits]
    exact reads_take s
  next => contradiction

theorem times_succ (n : Nat) (item : Decoder α)
    : times (n + 1) item = (do
        let a ← item
        let rest ← times n item
        return a :: rest) := by
  simp [times, List.replicate_succ]

/-- Items one after another are read back, by induction on them. -/
theorem reads_times {item : Decoder α} {write : α → Bytes} {xs : List α}
    (each : ∀ x ∈ xs, Reads item (write x) x)
    : Reads (times xs.length item) (xs.flatMap write) xs := by
  induction xs with
  | nil => exact Reads.pure []
  | cons x xs ih =>
      rw [List.length_cons, times_succ, List.flatMap_cons]
      rw [List.forall_mem_cons] at each
      exact each.1.bind (ih each.2).map

theorem ok_of_bind {ε : Type} {x : Except ε α} {k : α → Except ε β} {b : β}
    (h : x >>= k = .ok b)
    : ∃ a, x = .ok a ∧ k a = .ok b := by
  cases x with
  | error e => contradiction
  | ok a => exact ⟨a, rfl, h⟩

/-- Each item of a list that was taken whole can be taken, by induction on the list. -/
theorem ok_of_mapM {ε : Type} {f : α → Except ε β} {xs : List α} {ys : List β}
    (h : xs.mapM f = .ok ys) {x : α} (mem : x ∈ xs)
    : ∃ y, f x = .ok y := by
  induction xs generalizing ys with
  | nil => cases mem
  | cons first rest ih =>
      rw [List.mapM_cons] at h
      obtain ⟨y, found, h⟩ := ok_of_bind h
      obtain ⟨later, others, -⟩ := ok_of_bind h
      rcases List.mem_cons.mp mem with rfl | mem
      · exact ⟨y, found⟩
      · exact ih others mem

/-- Items that can all be written are read as what `f` makes of them, by induction on them. -/
theorem reads_sequence {item : Decoder β} {write : α → Except EncodeError Bytes} {f : α → β}
    {xs : List α} {bytes : Bytes} (ok : Encode.sequence write xs = .ok bytes)
    (each : ∀ x ∈ xs, ∀ part, write x = .ok part → Reads item part (f x))
    : Reads (times xs.length item) bytes (xs.map f) := by
  induction xs generalizing bytes with
  | nil =>
      cases ok
      exact Reads.pure []
  | cons x xs ih =>
      obtain ⟨parts, written, flat⟩ := ok_of_bind ok
      rw [List.mapM_cons] at written
      obtain ⟨part, first, written⟩ := ok_of_bind written
      obtain ⟨more, rest, written⟩ := ok_of_bind written
      cases written
      cases flat
      have tail : Encode.sequence write xs = .ok more.flatten := by
        rw [Encode.sequence, rest]
        rfl
      rw [List.length_cons, times_succ, List.flatten_cons]
      rw [List.forall_mem_cons] at each
      exact (each.1 part first).bind (ih tail each.2).map

theorem count_eq_ok {what bytes : Bytes} {n : Nat} (h : Encode.count what n = .ok bytes)
    : n ≤ Encode.maxCount ∧ bytes = Encode.u16 n.toUInt16 := by
  unfold Encode.count at h
  split at h
  next fits =>
    cases h
    exact ⟨fits, rfl⟩
  next => contradiction

/-- A list behind its length is read as what `f` makes of its items. -/
theorem reads_counted {item : Decoder β} {write : α → Except EncodeError Bytes} {f : α → β}
    {xs : List α} {what first second : Bytes}
    (length : Encode.count what xs.length = .ok first)
    (ok : Encode.sequence write xs = .ok second)
    (each : ∀ x ∈ xs, ∀ part, write x = .ok part → Reads item part (f x))
    : Reads (do times (← u16).toNat item) (first ++ second) (xs.map f) := by
  obtain ⟨fits, rfl⟩ := count_eq_ok length
  refine (reads_u16 _).bind ?_
  rw [toNat_toUInt16 fits]
  exact reads_sequence ok each

/-- A short list behind its length is read back. -/
theorem reads_short {item : Decoder α} {write : α → Bytes} {xs : List α}
    (short : xs.length ≤ 255) (each : ∀ x ∈ xs, Reads item (write x) x)
    : Reads (do times (← u8).toNat item) (Encode.u8 xs.length ++ xs.flatMap write) xs := by
  refine (reads_u8 _).bind ?_
  rw [UInt8.toNat_ofNat_of_lt' (Nat.lt_succ_of_le short)]
  exact reads_times each

------------------------------------------------------------------------------------------
-- tokens
------------------------------------------------------------------------------------------

/-- A token as a number: its table above three bytes, its row in them. -/
theorem toNat_token (table : TokenTable) {row : Nat} (fits : row < 2 ^ 24)
    : (table.token row).toNat = table.number.toNat * 2 ^ 24 + row := by
  have small : row % 2 ^ 32 = row := Nat.mod_eq_of_lt (by omega)
  have high : (table.number <<< 24).toNat = table.number.toNat <<< 24 := by cases table <;> rfl
  rw [TokenTable.token, UInt32.toNat_or, high, UInt32.toNat_ofNat', small,
    ← Nat.shiftLeft_add_eq_or_of_lt fits, Nat.shiftLeft_eq]

/-- The row of a token is the one it was made from, if that fits into three bytes. -/
theorem row?_token (table : TokenTable) {row : Nat} (fits : row < 2 ^ 24)
    : table.row? (table.token row) = some row := by
  have number := toNat_token table fits
  have high : table.token row >>> 24 = table.number := by
    apply UInt32.toNat_inj.mp
    rw [UInt32.toNat_shiftRight, number, show (24 : UInt32).toNat % 32 = 24 from rfl,
      Nat.shiftRight_eq_div_pow]
    omega
  have low : (table.token row &&& 0x00FFFFFF).toNat = row := by
    rw [UInt32.toNat_and, number, show (0x00FFFFFF : UInt32).toNat = 2 ^ 24 - 1 from rfl,
      Nat.and_two_pow_sub_one_eq_mod]
    omega
  rw [TokenTable.row?, if_pos high, low]

theorem find?_token (table : TokenTable) {rows : Array α} {row : Nat} {a : α}
    (fits : rows.size < 2 ^ 24) (found : rows[row]? = some a)
    : table.find? rows (table.token (row + 1)) = some a := by
  have inside := (Array.getElem?_eq_some_iff.mp found).1
  rw [TokenTable.find?, row?_token table (by omega)]
  exact found

end Decode
end TapeIL
