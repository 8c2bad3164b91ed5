import Mathlib
import TapeIL.Text.Blank

/-! Cutting a text into glyphs loses nothing, and a text may be cut apart in front of every byte
that does not continue a character. Trimming takes the white space from the ends of a text, and
therefore changes nothing where there is none.
-/

namespace TapeIL

namespace Glyph

------------------------------------------------------------------------------------------
-- characters in bytes
------------------------------------------------------------------------------------------

theorem isContinuation_iff (b : UInt8)
    : isContinuation b = true ↔ 0x80 ≤ b.toNat ∧ b.toNat < 0xC0 := by
  have bytes : ∀ n < 256, isContinuation (UInt8.ofNat n) = true ↔ 0x80 ≤ n ∧ n < 0xC0 := by
    decide +kernel
  simpa using bytes b.toNat b.toNat_lt

theorem tailBits_eq (b : UInt8) : tailBits b = b.toNat % 64 := by
  rw [tailBits, UInt8.toNat_and]
  exact Nat.and_two_pow_sub_one_eq_mod b.toNat 6

theorem toNat_of_scalar? {least n : Nat} {c : Char} (h : scalar? least n = some c)
    : least ≤ n ∧ c.val.toNat = n := by
  unfold scalar? at h
  split at h
  next valid =>
    cases h
    exact ⟨valid.1, by simp [Char.ofNat, valid.2, Char.ofNatAux]⟩
  next => contradiction

/-- The bytes of a character that was read are those that it was read from, by cases on how many
there are.
-/
theorem encode_of_read? {lead : UInt8} {rest : Bytes} {c : Char} {n : Nat}
    (h : read? lead rest = some (c, n))
    : n ≤ rest.length ∧ String.utf8EncodeChar c = lead :: rest.take n := by
  have byte {m : Nat} {b : UInt8} (same : m = b.toNat) : UInt8.ofNat m = b := by simp [same]
  have masked (mask : Nat) (b : UInt8) (width : Nat) (h : 2 ^ width - 1 = mask)
      : b.toNat &&& mask = b.toNat % 2 ^ width := by
    rw [← h, Nat.and_two_pow_sub_one_eq_mod]
  simp only [read?, UInt8.lt_iff_toNat_lt, UInt8.reduceToNat, tailBits_eq, UInt8.toNat_and,
    masked 31 lead 5 rfl, masked 15 lead 4 rfl, masked 7 lead 3 rfl] at h
  split at h
  next one =>
    obtain ⟨_, found, same⟩ := Option.map_eq_some_iff.mp h
    cases same
    obtain ⟨-, value⟩ := toNat_of_scalar? found
    rw [String.utf8EncodeChar, value, if_pos (by omega), byte rfl]
    exact ⟨by simp, rfl⟩
  split at h
  next => contradiction
  split at h
  next =>
    cases rest with
    | nil => contradiction
    | cons b rest =>
        simp only [Option.ite_none_right_eq_some, isContinuation_iff] at h
        obtain ⟨tail, h⟩ := h
        obtain ⟨_, found, same⟩ := Option.map_eq_some_iff.mp h
        cases same
        obtain ⟨least, value⟩ := toNat_of_scalar? found
        rw [String.utf8EncodeChar, value, if_neg (by omega), if_pos (by omega),
          byte (b := lead) (by omega), byte (b := b) (by omega)]
        exact ⟨by simp, rfl⟩
  split at h
  next =>
    match rest with
    | [] | [_] => contradiction
    | b :: d :: rest =>
        simp only [Option.ite_none_right_eq_some, Bool.and_eq_true, isContinuation_iff] at h
        obtain ⟨tail, h⟩ := h
        obtain ⟨_, found, same⟩ := Option.map_eq_some_iff.mp h
        cases same
        obtain ⟨least, value⟩ := toNat_of_scalar? found
        rw [String.utf8EncodeChar, value, if_neg (by omega), if_neg (by omega),
          if_pos (by omega), byte (b := lead) (by omega), byte (b := b) (by omega),
          byte (b := d) (by omega)]
        exact ⟨by simp, rfl⟩
  split at h
  next =>
    match rest with
    | [] | [_] | [_, _] => contradiction
    | b :: d :: e :: rest =>
        simp only [Option.ite_none_right_eq_some, Bool.and_eq_true, isContinuation_iff] at h
        obtain ⟨tail, h⟩ := h
        obtain ⟨_, found, same⟩ := Option.map_eq_some_iff.mp h
        cases same
        obtain ⟨least, value⟩ := toNat_of_scalar? found
        rw [String.utf8EncodeChar, value, if_neg (by omega), if_neg (by omega),
          if_neg (by omega), byte (b := lead) (by omega), byte (b := b) (by omega),
          byte (b := d) (by omega), byte (b := e) (by omega)]
        exact ⟨by simp, rfl⟩
  next => contradiction

/-- The glyphs of a text have the bytes of the text, by recursion on the cut. -/
theorem toBytes_ofBytes (bs : Bytes) : toBytes (ofBytes bs) = bs := by
  fun_induction ofBytes bs with
  | case1 => rfl
  | case2 lead rest c n found ih =>
      rw [toBytes, List.flatMap_cons, ← toBytes, ih, bytes, (encode_of_read? found).2,
        List.cons_append, List.take_append_drop]
  | case3 lead rest none ih =>
      rw [toBytes, List.flatMap_cons, ← toBytes, ih]
      rfl

------------------------------------------------------------------------------------------
-- cutting texts apart
------------------------------------------------------------------------------------------

/-- A text that does not begin in the middle of a character. -/
def Starts (bs : Bytes) : Prop :=
  ∀ b ∈ bs.head?, isContinuation b = false

theorem starts_cons {b : UInt8} (h : isContinuation b = false) (rest : Bytes)
    : Starts (b :: rest) := by
  simpa [Starts] using h

/-- A character ends in front of a byte that does not continue it. -/
theorem read?_append (lead : UInt8) (rest : Bytes) {more : Bytes} (h : Starts more)
    : read? lead (rest ++ more) = read? lead rest := by
  match more, h with
  | [], _ => rw [List.append_nil]
  | m :: more, h =>
      have stop : isContinuation m = false := h m rfl
      unfold read?
      -- up to three bytes are looked at, and those of `more` come behind the ones of `rest`
      match rest with
      | [] => rcases more with _ | ⟨x, _ | ⟨y, more⟩⟩ <;> simp [stop]
      | [b] => cases more <;> simp [stop]
      | [b, d] => simp [stop]
      | b :: d :: e :: rest => rfl

/-- A text that is cut apart where no character goes on has the glyphs of its two parts, by
recursion on the first.
-/
theorem ofBytes_append (first : Bytes) {second : Bytes} (h : Starts second)
    : ofBytes (first ++ second) = ofBytes first ++ ofBytes second := by
  fun_induction ofBytes first with
  | case1 => rfl
  | case2 lead rest c n found ih =>
      have inside := (encode_of_read? found).1
      have again := (read?_append lead rest h).trans found
      rw [List.cons_append, ofBytes, again]
      simp only [List.drop_append_of_le_length inside, ih, List.cons_append]
  | case3 lead rest stray ih =>
      have again := (read?_append lead rest h).trans stray
      rw [List.cons_append, ofBytes, again]
      simp only [ih, List.cons_append]

/-- The bytes of a character do not begin in the middle of one, by cases on how many there are. -/
theorem starts_encode (c : Char) (rest : Bytes) : Starts (String.utf8EncodeChar c ++ rest) := by
  have leads (n : Nat) (h : n % 256 < 0x80 ∨ 0xC0 ≤ n % 256)
      : isContinuation (UInt8.ofNat n) = false := by
    rw [← Bool.not_eq_true, isContinuation_iff, UInt8.toNat_ofNat']
    omega
  intro b mem
  rw [String.utf8EncodeChar] at mem
  split at mem
  · cases mem
    exact leads _ (by omega)
  split at mem
  · cases mem
    exact leads _ (by omega)
  split at mem
  · cases mem
    exact leads _ (by omega)
  · cases mem
    exact leads _ (by omega)

/-- The last glyphs of a text are the glyphs of their own bytes, by induction on the glyphs before
them.
-/
theorem ofBytes_of_suffix {bs : Bytes} {first second : List Glyph}
    (cut : ofBytes bs = first ++ second)
    : ofBytes (toBytes second) = second := by
  induction first generalizing bs with
  | nil => rw [← List.nil_append second, ← cut, toBytes_ofBytes]
  | cons g first ih =>
      cases bs with
      | nil => simp [ofBytes] at cut
      | cons lead rest =>
          rw [ofBytes] at cut
          split at cut
          next => exact ih (List.cons.inj cut).2
          next => exact ih (List.cons.inj cut).2

/-- So are the first glyphs, if what is behind them does not begin in the middle of a character. -/
theorem ofBytes_of_prefix {bs : Bytes} {first second : List Glyph}
    (cut : ofBytes bs = first ++ second) (starts : Starts (toBytes second))
    : ofBytes (toBytes first) = first := by
  have whole : ofBytes (toBytes first ++ toBytes second) = first ++ second := by
    have both : toBytes first ++ toBytes second = toBytes (first ++ second) := by
      simp [toBytes]
    rw [both, ← cut, toBytes_ofBytes]
  rw [ofBytes_append _ starts, ofBytes_of_suffix cut] at whole
  exact List.append_cancel_right whole

end Glyph

------------------------------------------------------------------------------------------
-- white space at the ends
------------------------------------------------------------------------------------------

namespace Bytes

/-- No white space is at either end of a text. -/
def Bare (bs : Bytes) : Prop :=
  (∀ g ∈ (Glyph.ofBytes bs).head?, g.isBlank = false)
  ∧ ∀ g ∈ (Glyph.ofBytes bs).getLast?, g.isBlank = false

instance (bs : Bytes) : Decidable (Bare bs) :=
  inferInstanceAs (Decidable (_ ∧ _))

/-- Trimming leaves a text alone that has no white space at its ends. -/
theorem trim_of_bare {bs : Bytes} (h : bs.Bare) : bs.trim = bs := by
  have head {glyphs : List Glyph} (first : ∀ g ∈ glyphs.head?, g.isBlank = false)
      : glyphs.dropWhile Glyph.isBlank = glyphs := by
    cases glyphs with
    | nil => rfl
    | cons g rest => simp [List.dropWhile, first g rfl]
  obtain ⟨first, last⟩ := h
  rw [← List.head?_reverse] at last
  simp only [trim, head first, head last, List.reverse_reverse, Glyph.toBytes_ofBytes]

theorem ofBytes_ne_nil {bs : Bytes} (h : bs ≠ []) : Glyph.ofBytes bs ≠ [] := by
  intro none
  have bytes := Glyph.toBytes_ofBytes bs
  rw [none] at bytes
  exact h bytes.symm

/-- A text has no white space at its ends if it begins and ends with texts that have none. -/
theorem Bare.enclose {first last : Bytes} (middle : Bytes) (h : first.Bare) (g : last.Bare)
    (begins : first ≠ []) (ends : last ≠ []) (cut : Glyph.Starts (middle ++ last))
    (starts : Glyph.Starts last)
    : (first ++ (middle ++ last)).Bare := by
  obtain ⟨head, more, front⟩ := List.exists_cons_of_ne_nil (ofBytes_ne_nil begins)
  constructor
  · have blank := h.1
    rw [front] at blank
    rwa [Glyph.ofBytes_append first cut, front]
  · rw [← List.append_assoc, Glyph.ofBytes_append _ starts,
      List.getLast?_append_of_ne_nil _ (ofBytes_ne_nil ends)]
    exact g.2

/-- Visible ASCII characters are no white space, by recursion on the cut. -/
theorem isBlank_of_visible {bs : Bytes} (visible : ∀ b ∈ bs, 0x20 < b.toNat ∧ b.toNat < 0x7F)
    : ∀ g ∈ Glyph.ofBytes bs, g.isBlank = false := by
  fun_induction Glyph.ofBytes bs with
  | case1 => simp
  | case2 lead rest c n found ih =>
      rw [List.forall_mem_cons] at visible ⊢
      obtain ⟨low, high⟩ := visible.1
      refine ⟨?_, ih fun b mem => visible.2 b (List.mem_of_mem_drop mem)⟩
      have ascii : lead < 0x80 := UInt8.lt_iff_toNat_lt.mpr (Nat.lt_trans high (by decide))
      simp only [Glyph.read?, ascii, if_true] at found
      obtain ⟨d, scalar, same⟩ := Option.map_eq_some_iff.mp found
      cases same
      obtain ⟨-, value⟩ := Glyph.toNat_of_scalar? scalar
      have code : c.toNat = lead.toNat := value
      simp [Glyph.isBlank, Text.isBlank, inIntervals, Text.blankIntervals, code]
      omega
  | case3 lead rest stray ih =>
      rw [List.forall_mem_cons] at visible ⊢
      exact ⟨rfl, ih visible.2⟩

theorem bare_of_visible {bs : Bytes} (visible : ∀ b ∈ bs, 0x20 < b.toNat ∧ b.toNat < 0x7F)
    : bs.Bare := by
  have each := isBlank_of_visible visible
  exact ⟨fun g first => each g (List.mem_of_mem_head? first),
    fun g last => each g (List.mem_of_mem_getLast? last)⟩

/-- White space: characters of that kind, one after another. -/
def Blank (bs : Bytes) : Prop :=
  ∃ chars : List Char, (∀ c ∈ chars, Text.isBlank c = true)
    ∧ bs = chars.flatMap String.utf8EncodeChar

/-- The inner text is what is left of a text when the white space is taken from both its ends. -/
structure Trimmed (bs inner : Bytes) : Prop where
  framed : ∃ front back : Bytes, front.Blank ∧ back.Blank ∧ bs = front ++ inner ++ back
  bare : inner.Bare

theorem blank_of_glyphs {glyphs : List Glyph} (each : ∀ g ∈ glyphs, g.isBlank = true)
    : Blank (Glyph.toBytes glyphs) := by
  induction glyphs with
  | nil => exact ⟨[], by simp, rfl⟩
  | cons g glyphs ih =>
      rw [List.forall_mem_cons] at each
      obtain ⟨chars, blank, rest⟩ := ih each.2
      cases g with
      | stray b => exact absurd each.1 Bool.false_ne_true
      | char c =>
          refine ⟨c :: chars, List.forall_mem_cons.mpr ⟨each.1, blank⟩, ?_⟩
          rw [List.flatMap_cons, ← rest]
          rfl

theorem Blank.starts {bs : Bytes} (h : bs.Blank) : Glyph.Starts bs := by
  obtain ⟨chars, -, rfl⟩ := h
  cases chars with
  | nil => nofun
  | cons c chars => exact Glyph.starts_encode c _

/-- What is dropped from both ends of a list is of the kind that is dropped there, and what is left
neither begins nor ends with it.
-/
theorem ends_dropped {α : Type} (p : α → Bool) (xs : List α)
    : let inner := ((xs.dropWhile p).reverse.dropWhile p).reverse
      (∀ x ∈ inner.head?, p x = false) ∧ (∀ x ∈ inner.getLast?, p x = false)
      ∧ ∃ front back, xs = front ++ (inner ++ back)
        ∧ (∀ x ∈ front, p x = true) ∧ ∀ x ∈ back, p x = true := by
  intro inner
  have stops {ys : List α} {x : α} (first : (ys.dropWhile p).head? = some x) : p x = false := by
    have other := List.head?_dropWhile_not p ys
    rwa [first] at other
  let back := ((xs.dropWhile p).reverse.takeWhile p).reverse
  have cut : xs.dropWhile p = inner ++ back := by
    rw [← List.reverse_append, List.takeWhile_append_dropWhile, List.reverse_reverse]
  refine ⟨fun x first => ?_, fun x last => ?_, xs.takeWhile p, back, ?_,
    fun x mem => List.mem_takeWhile_imp mem,
    fun x mem => List.mem_takeWhile_imp (List.mem_reverse.mp mem)⟩
  · have head : (xs.dropWhile p).head? = some x := by
      rw [cut, List.head?_append, Option.mem_def.mp first]
      rfl
    exact stops head
  · exact stops (List.getLast?_reverse ▸ last)
  · rw [← cut, List.takeWhile_append_dropWhile]

/-- Trimming takes the white space from both ends of a text, and nothing else. -/
theorem trimmed_trim (bs : Bytes) : bs.Trimmed bs.trim := by
  obtain ⟨first, last, front, back, cut, blankFront, blankBack⟩ :=
    ends_dropped Glyph.isBlank (Glyph.ofBytes bs)
  have glyphs : Glyph.ofBytes bs.trim
      = (((Glyph.ofBytes bs).dropWhile Glyph.isBlank).reverse.dropWhile Glyph.isBlank).reverse :=
    Glyph.ofBytes_of_prefix (Glyph.ofBytes_of_suffix cut) (blank_of_glyphs blankBack).starts
  refine ⟨⟨_, _, blank_of_glyphs blankFront, blank_of_glyphs blankBack, ?_⟩, ?_, ?_⟩
  · have whole := Glyph.toBytes_ofBytes bs
    rw [cut] at whole
    simpa [Glyph.toBytes, trim] using whole.symm
  · rwa [glyphs]
  · rwa [glyphs]

end Bytes
end TapeIL
