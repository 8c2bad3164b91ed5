import Mathlib
import TapeIL.Bytes

/-! Texts are taken apart where they were put together: at the start of a text, at the first or last
separator, at every separator of a list. Numbers are read back from their digits.
-/

namespace TapeIL.Bytes

------------------------------------------------------------------------------------------
-- the start of a text
------------------------------------------------------------------------------------------

theorem after?_append (start rest : Bytes) : after? start (start ++ rest) = some rest := by
  induction start with
  | nil => rfl
  | cons b start ih => simpa [after?] using ih

theorem eq_append_of_after? {start bytes rest : Bytes} (h : after? start bytes = some rest)
    : bytes = start ++ rest := by
  induction start generalizing bytes with
  | nil => exact Option.some.inj h
  | cons a start ih =>
      cases bytes with
      | nil => simp [after?] at h
      | cons b bytes =>
          simp only [after?] at h
          split at h
          next same => rw [same, ih h, List.cons_append]
          next => contradiction

theorem after?_eq_none {start bytes : Bytes} (h : ¬start <+: bytes)
    : after? start bytes = none := by
  cases found : after? start bytes with
  | none => rfl
  | some rest => exact absurd ⟨rest, (eq_append_of_after? found).symm⟩ h

------------------------------------------------------------------------------------------
-- separators
------------------------------------------------------------------------------------------

/-- A text is cut at a separator that begins nowhere in front of it, not even across its start. -/
theorem cut?_append {sep head : Bytes} (tail : Bytes) (h : ¬sep <:+: head ++ sep.dropLast)
    : cut? sep (head ++ sep ++ tail) = some (head, tail) := by
  induction head with
  | nil =>
      cases sep with
      | nil => exact absurd List.nil_infix h
      | cons s sep =>
          have here := after?_append (s :: sep) tail
          rw [List.cons_append] at here
          rw [List.nil_append, List.cons_append, cut?, here]
  | cons b head ih =>
      have later : ¬sep <:+: head ++ sep.dropLast :=
        fun found => h (found.trans (List.suffix_cons b _).isInfix)
      have here : after? sep (b :: (head ++ sep ++ tail)) = none := by
        refine after?_eq_none fun begins => h ?_
        have front : b :: head ++ sep.dropLast <+: b :: (head ++ sep ++ tail) := by
          have parts := (List.dropLast_prefix sep).trans (List.prefix_append sep tail)
          simpa [List.append_assoc] using parts
        have short : sep.length ≤ (b :: head ++ sep.dropLast).length := by
          simp only [List.length_append, List.length_cons, List.length_dropLast]
          omega
        exact (List.prefix_of_prefix_length_le begins front short).isInfix
      rw [List.cons_append, List.cons_append, cut?, here, ih later]
      rfl

/-- A text is cut at a byte that is not in front of it. -/
theorem cut?_byte {sep : UInt8} {head : Bytes} (tail : Bytes) (h : sep ∉ head)
    : cut? [sep] (head ++ [sep] ++ tail) = some (head, tail) := by
  refine cut?_append tail ?_
  rwa [List.dropLast_singleton, List.append_nil, List.singleton_infix_iff]

theorem cutLast?_eq_none {sep : UInt8} {bs : Bytes} (h : sep ∉ bs) : cutLast? sep bs = none := by
  induction bs with
  | nil => rfl
  | cons b rest ih =>
      rw [List.mem_cons, not_or] at h
      rw [cutLast?, ih h.2, if_neg (Ne.symm h.1)]

/-- A text is cut at a byte that is not behind it. -/
theorem cutLast?_append {sep : UInt8} (head : Bytes) {tail : Bytes} (h : sep ∉ tail)
    : cutLast? sep (head ++ sep :: tail) = some (head, tail) := by
  induction head with
  | nil => rw [List.nil_append, cutLast?, cutLast?_eq_none h, if_pos rfl]
  | cons b head ih => rw [List.cons_append, cutLast?, ih]

theorem splitOn_eq (sep : UInt8) (bs : Bytes) : Bytes.splitOn sep bs = List.splitOn sep bs := by
  induction bs with
  | nil => rfl
  | cons b rest ih =>
      have pieces := List.splitOnP_ne_nil (· == sep) rest
      rw [Bytes.splitOn, ih, List.splitOn, List.splitOn, List.splitOnP_cons_eq_if_modifyHead]
      by_cases here : b = sep
      · simp [here]
      · cases found : List.splitOnP (· == sep) rest with
        | nil => exact absurd found pieces
        | cons piece pieces => simp [here]

theorem join_eq (sep : Bytes) (pieces : List Bytes) : join sep pieces = sep.intercalate pieces := by
  fun_induction join sep pieces with
  | case1 => simp
  | case2 piece => simp
  | case3 piece pieces nonempty ih =>
      cases pieces with
      | nil => exact absurd rfl nonempty
      | cons next pieces => rw [ih, List.intercalate_cons_cons]

/-- The pieces of a text come back if the separator is in none of them. -/
theorem splitOn_join {sep : UInt8} {pieces : List Bytes} (each : ∀ piece ∈ pieces, sep ∉ piece)
    (full : pieces ≠ [])
    : Bytes.splitOn sep (join [sep] pieces) = pieces := by
  rw [splitOn_eq, join_eq, List.splitOn_intercalate sep each full]

/-- A text is its pieces with the separator between them. -/
theorem join_splitOn (sep : UInt8) (bs : Bytes) : join [sep] (Bytes.splitOn sep bs) = bs := by
  rw [splitOn_eq, join_eq, List.intercalate_splitOn]

theorem splitOn_ne_nil (sep : UInt8) (bs : Bytes) : Bytes.splitOn sep bs ≠ [] := by
  rw [splitOn_eq]
  exact List.splitOnP_ne_nil _ bs

/-- What is in joined pieces is in the separator or in one of them, by recursion on the joining. -/
theorem mem_join {sep : Bytes} {pieces : List Bytes} {b : UInt8} (h : b ∈ join sep pieces)
    : b ∈ sep ∨ ∃ piece ∈ pieces, b ∈ piece := by
  induction pieces using join.induct with
  | case1 => simp [join] at h
  | case2 piece => exact .inr ⟨piece, List.mem_singleton_self piece, h⟩
  | case3 piece pieces nonempty ih =>
      rw [join, List.append_assoc, List.mem_append, List.mem_append] at h
      · rcases h with first | between | later
        · exact .inr ⟨piece, List.mem_cons_self, first⟩
        · exact .inl between
        · rcases ih later with between | ⟨other, mem, found⟩
          · exact .inl between
          · exact .inr ⟨other, List.mem_cons_of_mem _ mem, found⟩
      · exact nonempty

------------------------------------------------------------------------------------------
-- numbers
------------------------------------------------------------------------------------------

/-- Every digit of a number is one of its base, by induction on the digits. -/
theorem digit_of_mem_toDigits {base n : Nat} (large : 1 < base) {c : Char}
    (h : c ∈ Nat.toDigits base n)
    : ∃ d < base, c = d.digitChar := by
  induction n using Nat.base_induction base large with
  | single n small =>
      rw [Nat.toDigits_of_lt_base small] at h
      exact ⟨n, small, List.mem_singleton.mp h⟩
  | digit n d small positive ih =>
      rw [← Nat.toDigits_append_toDigits large positive small, List.mem_append,
        Nat.toDigits_of_lt_base small] at h
      rcases h with front | last
      · exact ih front
      · exact ⟨d, small, List.mem_singleton.mp last⟩

/-- The digits of a number add up to it if each is read as what it stands for, by induction on the
digits.
-/
theorem foldl_toDigits {base : Nat} (large : 1 < base) (value : UInt8 → Nat)
    (read : ∀ d < base, value (code d.digitChar) = d) (n : Nat)
    : ((Nat.toDigits base n).map code).foldl (fun sum b => base * sum + value b) 0 = n := by
  induction n using Nat.base_induction base large with
  | single n small => simp [Nat.toDigits_of_lt_base small, read n small]
  | digit n d small positive ih =>
      rw [← Nat.toDigits_append_toDigits large positive small, List.map_append, List.foldl_append,
        ih, Nat.toDigits_of_lt_base small]
      simp [read d small]

theorem isDigit_of_mem_decimal {n : Nat} {b : UInt8} (h : b ∈ decimal n) : isDigit b = true := by
  obtain ⟨c, mem, rfl⟩ := List.mem_map.mp h
  obtain ⟨d, small, rfl⟩ := digit_of_mem_toDigits (by decide) mem
  have digits : ∀ d < 10, isDigit (code d.digitChar) = true := by decide
  exact digits d small

/-- What decimal digits stand for: ones in the last place, tens in the one before it, and so on. -/
def numeral (digits : Bytes) : Nat :=
  Nat.ofDigits 10 (digits.reverse.map fun b => (b - code '0').toNat)

theorem digitsValue_eq (digits : Bytes) : digitsValue digits = digits.numeral := by
  unfold digitsValue numeral
  rw [Nat.ofDigits_eq_foldr, ← List.foldr_reverse, List.foldr_map]
  simp only [Nat.cast_id, Nat.add_comm]

/-- A number is read exactly from a text of decimal digits, and is what these stand for. -/
theorem nat?_eq_some_iff {bs : Bytes} {n : Nat}
    : nat? bs = some n
      ↔ (bs ≠ [] ∧ ∀ b ∈ bs, code '0' ≤ b ∧ b ≤ code '9') ∧ bs.numeral = n := by
  unfold nat?
  simp [digitsValue_eq, isDigit]

/-- A number is read back from its decimal digits. -/
theorem nat?_decimal (n : Nat) : nat? (decimal n) = some n := by
  have full : (decimal n).isEmpty = false := by
    simp [decimal]
  have digits : (decimal n).any (fun b => !isDigit b) = false := by
    rw [List.any_eq_false]
    intro b mem
    simp [isDigit_of_mem_decimal mem]
  have value : digitsValue (decimal n) = n :=
    foldl_toDigits (by decide) (fun b => (b - code '0').toNat) (by decide) n
  simp [nat?, full, digits, value]

/-- An integer is read back from its sign and its decimal digits. -/
theorem int?_decimalInt (i : Int) : int? (decimalInt i) = some i := by
  cases i with
  | negSucc n =>
      rw [decimalInt, int?, if_pos rfl, nat?_decimal]
      rfl
  | ofNat n =>
      have read := nat?_decimal n
      cases digits : decimal n with
      | nil => simp [digits, nat?] at read
      | cons b rest =>
          have digit : isDigit b = true :=
            isDigit_of_mem_decimal (digits ▸ List.mem_cons_self)
          have minus : b ≠ code '-' := by rintro rfl; contradiction
          have plus : b ≠ code '+' := by rintro rfl; contradiction
          rw [decimalInt, digits, int?, if_neg minus, if_neg plus, ← digits, read]
          rfl

/-- The value of a hexadecimal digit. -/
def hexDigit (b : UInt8) : Nat :=
  if isDigit b then (b - code '0').toNat else (b - code 'a').toNat + 10

theorem hex_digits {width n : Nat} {b : UInt8} (h : b ∈ hex width n)
    : ∃ d < 16, b = code d.digitChar := by
  rcases List.mem_append.mp h with zero | digit
  · exact ⟨0, by decide, (List.mem_replicate.mp zero).2⟩
  · obtain ⟨c, mem, rfl⟩ := List.mem_map.mp digit
    obtain ⟨d, small, rfl⟩ := digit_of_mem_toDigits (by decide) mem
    exact ⟨d, small, rfl⟩

/-- Numbers have different hexadecimal digits, however many zeros are in front. -/
theorem hex_injective {width m n : Nat} (h : hex width m = hex width n) : m = n := by
  have value (n : Nat) : (hex width n).foldl (fun sum b => 16 * sum + hexDigit b) 0 = n := by
    have zeros (count : Nat)
        : (List.replicate count (code '0')).foldl (fun sum b => 16 * sum + hexDigit b) 0 = 0 := by
      induction count with
      | zero => rfl
      | succ count ih =>
          have zero : hexDigit (code '0') = 0 := by decide
          rw [List.replicate_succ, List.foldl_cons, zero]
          exact ih
    rw [hex, List.foldl_append, zeros]
    exact foldl_toDigits (by decide) hexDigit (by decide) n
  rw [← value m, h, value]

end TapeIL.Bytes
