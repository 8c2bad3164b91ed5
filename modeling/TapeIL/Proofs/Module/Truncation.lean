import TapeIL.Proofs.Module.Fields

/-! Decoding is decided by the bytes it reads. Bytes behind them change nothing, and an input that
is cut anywhere in them is reported as too short, at a position up to which it goes.
-/

namespace TapeIL

variable {α β : Type}

------------------------------------------------------------------------------------------
-- the start of a text
------------------------------------------------------------------------------------------

namespace Bytes

/-- Whether a text has a given start does not depend on what follows it, if it is as long as that
start.
-/
theorem after?_append_of_le (start : Bytes) {bytes : Bytes}
    (long : start.length ≤ bytes.length) (more : Bytes)
    : after? start (bytes ++ more) = (after? start bytes).map (· ++ more) := by
  induction start generalizing bytes with
  | nil => rfl
  | cons a start ih =>
      cases bytes with
      | nil => simp at long
      | cons b bytes =>
          simp only [List.cons_append, after?]
          split
          next => exact ih (by simpa using long)
          next => rfl

end Bytes

------------------------------------------------------------------------------------------
-- decoders that are decided by what they read
------------------------------------------------------------------------------------------

namespace Decode

theorem error_of_bind {ε : Type} {x : Except ε α} {k : α → Except ε β} {e : ε}
    (h : x >>= k = .error e)
    : x = .error e ∨ ∃ a, x = .ok a ∧ k a = .error e := by
  cases x with
  | error other => exact .inl (by cases h; rfl)
  | ok a => exact .inr ⟨a, rfl, h⟩

/-- A decoder that is decided by the bytes it reads. With a value it leaves the input behind those
bytes; an error is either that the input ends too early, or the same whatever comes behind it.
-/
structure Local (d : Decoder α) : Prop where
  ok : ∀ {rest : Bytes} {position : Nat} {a : α} {c : Cursor},
    d.run ⟨rest, position⟩ = .ok (a, c)
    → ∃ taken, rest = taken ++ c.rest
      ∧ c.position = position + taken.length
      ∧ ∀ more, d.run ⟨rest ++ more, position⟩ = .ok (a, ⟨c.rest ++ more, c.position⟩)
  error : ∀ {rest : Bytes} {position : Nat} {e : DecodeError},
    d.run ⟨rest, position⟩ = .error e
    → (∃ last, e = .truncated last ∧ position ≤ last ∧ last ≤ position + rest.length)
      ∨ ∀ more, d.run ⟨rest ++ more, position⟩ = .error e

theorem Local.pure (a : α) : Local (pure a) := by
  refine ⟨?_, nofun⟩
  rintro rest position _ _ ⟨⟩
  exact ⟨[], rfl, rfl, fun _ => rfl⟩

theorem Local.throw (e : DecodeError) : Local (throw e : Decoder α) := by
  refine ⟨nofun, ?_⟩
  rintro rest position _ ⟨⟩
  exact .inr fun _ => rfl

/-- What follows a decoder starts behind the bytes that it has read. -/
theorem Local.bind {d : Decoder α} {k : α → Decoder β} (h : Local d) (next : ∀ a, Local (k a))
    : Local (d >>= k) := by
  refine ⟨?_, ?_⟩
  · intro rest position b last done
    rw [StateT.run_bind] at done
    obtain ⟨⟨a, c⟩, first, second⟩ := ok_of_bind done
    obtain ⟨taken, rfl, here, same⟩ := h.ok first
    obtain ⟨more, left, there, after⟩ := (next a).ok second
    refine ⟨taken ++ more, ?_, ?_, ?_⟩
    · rw [List.append_assoc, ← left]
    · rw [there, here, List.length_append, Nat.add_assoc]
    · intro behind
      rw [StateT.run_bind, same behind]
      exact after behind
  · intro rest position e failed
    rw [StateT.run_bind] at failed
    rcases error_of_bind failed with first | ⟨⟨a, c⟩, first, second⟩
    · refine (h.error first).imp_right fun same more => ?_
      rw [StateT.run_bind, same more]
      rfl
    · obtain ⟨taken, rfl, here, same⟩ := h.ok first
      refine ((next a).error second).imp ?_ ?_
      · rintro ⟨last, rfl, low, high⟩
        refine ⟨last, rfl, ?_, ?_⟩
        · omega
        · rw [List.length_append]
          omega
      · intro after more
        rw [StateT.run_bind, same more]
        exact after more

theorem local_take (n : Nat) : Local (take n) := by
  refine ⟨?_, ?_⟩
  · intro rest position a c done
    rw [take_run] at done
    split at done
    next enough =>
      cases done
      refine ⟨rest.take n, (List.take_append_drop n rest).symm, ?_, ?_⟩
      · simp [enough]
      · intro more
        have still : n ≤ (rest ++ more).length := by
          rw [List.length_append]
          omega
        rw [take_run, if_pos still, List.take_append_of_le_length enough,
          List.drop_append_of_le_length enough]
    next => contradiction
  · intro rest position e failed
    rw [take_run] at failed
    split at failed
    next => contradiction
    next =>
      cases failed
      exact .inl ⟨position, rfl, Nat.le_refl _, Nat.le_add_right _ _⟩

theorem local_u8 : Local u8 :=
  (local_take 1).bind fun _ => .pure _

theorem local_u16 : Local u16 :=
  (local_take 2).bind fun _ => .pure _

theorem local_u32 : Local u32 :=
  (local_take 4).bind fun _ => .pure _

theorem local_string : Local string :=
  local_u16.bind fun n => local_take n.toNat

/-- Reading many things is decided by what is read, by induction on how many there are. -/
theorem local_times {item : Decoder α} (h : Local item) (n : Nat) : Local (times n item) := by
  induction n with
  | zero => exact .pure []
  | succ n ih =>
      rw [times_succ]
      exact h.bind fun _ => ih.bind fun _ => .pure _

theorem local_lift (x : Except DecodeError α) : Local (liftM x : Decoder α) := by
  cases x with
  | ok a => exact .pure a
  | error e => exact .throw e

------------------------------------------------------------------------------------------
-- the parts of a module
------------------------------------------------------------------------------------------

theorem local_typeRef : Local typeRef :=
  local_string.bind fun _ => local_string.bind fun _ => .pure _

theorem local_typeToken (t : Tables) : Local (typeToken t) := by
  refine local_u32.bind fun token => ?_
  split
  · exact .pure _
  · exact .throw _

theorem local_member (t : Tables) : Local (member t) :=
  (local_typeToken t).bind fun _ => local_string.bind fun _ => local_u8.bind fun _ =>
    (local_typeToken t).bind fun _ => local_u8.bind fun n =>
      (local_times (local_typeToken t) n.toNat).bind fun _ => .pure _

/-- The byte code of a method is taken as a whole, so what is wrong in it is no lack of bytes. -/
theorem local_method (t : Tables) : Local (method t) := by
  refine local_string.bind fun name => local_u16.bind fun flags => local_u8.bind fun n =>
    (local_times (local_typeToken t) n.toNat).bind fun locals => local_u32.bind fun size =>
      (local_take size.toNat).bind fun bytes => ?_
  split
  · exact .pure _
  · exact .throw _

theorem local_typeDef (t : Tables) : Local (typeDef t) :=
  local_string.bind fun _ => local_string.bind fun _ => (local_typeToken t).bind fun _ =>
    local_u16.bind fun n => (local_times (local_method t) n.toNat).bind fun _ => .pure _

theorem local_version : Local version :=
  local_u16.bind fun _ => local_u16.bind fun _ => local_u16.bind fun _ => local_u16.bind fun _ =>
    .pure _

theorem local_fields : Local fields :=
  local_string.bind fun _ => local_version.bind fun _ => (local_take 16).bind fun _ =>
    local_u16.bind fun typeCount => (local_times local_typeRef typeCount.toNat).bind fun _ =>
      local_u16.bind fun count => (local_times (local_member _) count.toNat).bind fun _ =>
        local_u16.bind fun n => (local_times (local_typeDef _) n.toNat).bind fun _ =>
          local_u32.bind fun _ => .pure _

theorem local_located : Local located :=
  local_fields.bind fun (m, token) => (local_lift (entry m.types token)).bind fun _ => .pure _

theorem local_contents : Local contents := by
  refine local_u16.bind fun format => ?_
  split
  · exact (Local.throw (.unsupported format)).bind fun _ => local_located
  · exact local_located

end Decode

------------------------------------------------------------------------------------------
-- modules
------------------------------------------------------------------------------------------

namespace Module

open Decode

theorem decodeRest_of_after? {bytes rest : Bytes}
    (h : Bytes.after? Encode.magic bytes = some rest)
    : decodeRest bytes = contents.run { rest, position := 4 } := by
  simp only [decodeRest, h]
  rfl

theorem decode_of_after? {bytes rest : Bytes} (h : Bytes.after? Encode.magic bytes = some rest)
    : decode bytes = (contents.run { rest, position := 4 }).map Prod.fst := by
  rw [decode, decodeRest_of_after? h]

theorem decode_badMagic {bytes : Bytes} (h : Bytes.after? Encode.magic bytes = none)
    : decode bytes = .error .badMagic := by
  simp only [decode, decodeRest, h]
  rfl

/-- An input of at least the magic bytes that is not too short is decoded the same whatever is
behind it.
-/
theorem decode_append {bytes : Bytes} (long : 4 ≤ bytes.length)
    (enough : ∀ position, decode bytes ≠ .error (.truncated position)) (more : Bytes)
    : decode (bytes ++ more) = decode bytes := by
  have start := Bytes.after?_append_of_le Encode.magic long more
  cases found : Bytes.after? Encode.magic bytes with
  | none =>
      rw [found] at start
      rw [decode_badMagic start, decode_badMagic found]
  | some rest =>
      rw [found] at start
      rw [decode_of_after? start, decode_of_after? found]
      rw [decode_of_after? found] at enough
      cases run : contents.run { rest, position := 4 } with
      | ok result =>
          obtain ⟨-, -, -, same⟩ := local_contents.ok run
          rw [same more]
          rfl
      | error e =>
          rcases local_contents.error run with ⟨last, rfl, -, -⟩ | same
          · exact absurd (by rw [run]; rfl) (enough last)
          · rw [same more]

/-- A part of an input that is read to its end, from the start of it, is too short. -/
theorem decode_cut {bytes more : Bytes} {m : Module} {c : Cursor} (long : 4 ≤ bytes.length)
    (proper : more ≠ []) (whole : decodeRest (bytes ++ more) = .ok (m, c)) (read : c.rest = [])
    : ∃ position, 4 ≤ position ∧ position ≤ bytes.length
      ∧ decode bytes = .error (.truncated position) := by
  have start := Bytes.after?_append_of_le Encode.magic long more
  cases found : Bytes.after? Encode.magic bytes with
  | none =>
      rw [found] at start
      simp [decodeRest, start] at whole
  | some rest =>
      rw [found] at start
      rw [decodeRest_of_after? start] at whole
      have size : bytes.length = 4 + rest.length := by
        rw [Bytes.eq_append_of_after? found, List.length_append]
        rfl
      rw [decode_of_after? found, size]
      cases cut : contents.run { rest, position := 4 } with
      | ok result =>
          obtain ⟨-, -, -, same⟩ := local_contents.ok cut
          rw [same more] at whole
          cases whole
          exact absurd (List.append_eq_nil_iff.mp read).2 proper
      | error e =>
          rcases local_contents.error cut with ⟨last, rfl, low, high⟩ | same
          · exact ⟨last, low, high, rfl⟩
          · rw [same more] at whole
            contradiction

/-- A successful reading leaves what is behind the position it has come to. -/
theorem rest_of_decodeRest {bytes : Bytes} {m : Module} {c : Cursor}
    (h : decodeRest bytes = .ok (m, c))
    : bytes.length = c.position + c.rest.length := by
  unfold decodeRest at h
  split at h
  next rest found =>
    obtain ⟨taken, rfl, here, -⟩ := local_contents.ok h
    rw [Bytes.eq_append_of_after? found, here]
    simp only [List.length_append]
    omega
  next => contradiction

/-- Decoding is decided by the bytes it consumes. An input that is not too short gives the same
result with anything behind it; and if a module is read from an input to its last byte, every part
that the input starts with is too short, and is reported so at a position inside that part.
-/
theorem decode_decided_by_consumed (bytes more : Bytes) (long : 4 ≤ bytes.length)
    : ((∀ position, decode bytes ≠ .error (.truncated position))
        → decode (bytes ++ more) = decode bytes)
      ∧ ∀ m c, decodeRest bytes = .ok (m, c) → c.position = bytes.length
        → ∀ part, part <+: bytes → part ≠ bytes
        → (part.length < 4 → decode part = .error .badMagic)
          ∧ (4 ≤ part.length → ∃ position, 4 ≤ position ∧ position ≤ part.length
            ∧ decode part = .error (.truncated position)) := by
  refine ⟨fun enough => decode_append long enough more, ?_⟩
  rintro m c whole consumed part ⟨behind, rfl⟩ proper
  refine ⟨fun short => ?_, fun long => ?_⟩
  · have none : Bytes.after? Encode.magic part = none := by
      refine Option.eq_none_iff_forall_ne_some.mpr fun rest found => ?_
      have size := congrArg List.length (Bytes.eq_append_of_after? found)
      rw [List.length_append, show Encode.magic.length = 4 from rfl] at size
      omega
    exact decode_badMagic none
  · refine decode_cut long ?_ whole ?_
    · rintro rfl
      exact proper (List.append_nil part).symm
    · have size := rest_of_decodeRest whole
      exact List.eq_nil_of_length_eq_zero (by omega)

/-- A module with one type and an empty method in it: at each of its 69 bytes an input can end too
early, and bytes behind the last are not looked at.
-/
theorem decode_decided_by_consumed_small
    : let bytes : Bytes :=
        text "BFIL" ++ [1, 0, 1, 0, 112, 1, 0, 0, 0, 0, 0, 0, 0] ++ text "0123456789abcdef"
          ++ [1, 0, 0, 0, 1, 0, 84, 0, 0, 1, 0, 0, 0, 1, 0, 85, 1, 0, 0, 1, 1, 0, 1, 0, 109, 16, 0,
            0, 0, 0, 0, 0, 1, 0, 0, 6]
      let m : Module :=
        { name := text "p"
          version := { major := 1 }
          id := .ofBytes (text "0123456789abcdef")
          types := [
            { ns := [], name := text "U", base := ⟨[], text "T"⟩
              methods := [{ name := text "m", isStatic := true }] }]
          entry := .method 0 0 }
      decodeRest bytes = .ok (m, { rest := [], position := 69 })
      ∧ decode (bytes ++ text "tail") = decode bytes
      ∧ decode (bytes.take 3) = .error .badMagic
      ∧ ∃ position, 4 ≤ position ∧ position ≤ 68
        ∧ decode (bytes.take 68) = .error (.truncated position) := by
  intro bytes m
  have whole : decodeRest bytes = .ok (m, { rest := [], position := 69 }) := by decide +kernel
  have enough : ∀ position, decode bytes ≠ .error (.truncated position) := by
    intro position
    rw [decode, whole]
    exact nofun
  obtain ⟨same, cuts⟩ := decode_decided_by_consumed bytes (text "tail") (by decide)
  have short := cuts m _ whole rfl (bytes.take 3) ⟨_, List.take_append_drop 3 bytes⟩ (by decide)
  have long := cuts m _ whole rfl (bytes.take 68) ⟨_, List.take_append_drop 68 bytes⟩ (by decide)
  exact ⟨whole, same enough, short.1 (by decide), long.2 (by decide)⟩

end Module
end TapeIL
