import TapeIL.Proofs.IL.Reference
import TapeIL.Version

/-! The texts that are read as versions: one to four decimal numbers of 16 bits with single dots
between them, and white space around. The missing numbers are zero, and a printed version is read
back.
-/

namespace TapeIL.Version

/-- The numbers of a version, from the major one to the revision. -/
def numbers (v : Version) : List Nat :=
  [v.major, v.minor, v.build, v.revision].map UInt16.toNat

/-- A component as it may be written: ASCII digits, however many, that stand for a number of at most
16 bits.
-/
structure Component (part : Bytes) : Prop where
  full : part ≠ []
  digits : ∀ b ∈ part, Bytes.code '0' ≤ b ∧ b ≤ Bytes.code '9'
  small : part.numeral ≤ 65535

/-- A version as it may be written: one to four components with single dots between them. -/
structure Spells (source : Bytes) (parts : List Bytes) : Prop where
  dotted : source = Bytes.join (text ".") parts
  some : parts ≠ []
  few : parts.length ≤ 4
  each : ∀ part ∈ parts, Component part

/-- The numbers that components stand for, with zeros in place of those that are missing. -/
def written (parts : List Bytes) : List Nat :=
  parts.map Bytes.numeral ++ List.replicate (4 - parts.length) 0

theorem numbers_injective {v w : Version} (h : v.numbers = w.numbers) : v = w := by
  cases v
  cases w
  simp only [numbers, List.map_cons, List.map_nil, List.cons.injEq, and_true, UInt16.toNat_inj] at h
  obtain ⟨rfl, rfl, rfl, rfl⟩ := h
  rfl

theorem numbers_ofComponents {ns : List UInt16} (few : ns.length ≤ 4)
    : (ofComponents ns).numbers = ns.map UInt16.toNat ++ List.replicate (4 - ns.length) 0 := by
  match ns, few with
  | [], _ | [_], _ | [_, _], _ | [_, _, _], _ | [_, _, _, _], _ => rfl

------------------------------------------------------------------------------------------
-- components
------------------------------------------------------------------------------------------

/-- A component is read exactly if it is written as one, and then as the number it stands for. -/
theorem component?_eq_some_iff {part : Bytes} {n : UInt16}
    : component? part = some n ↔ Component part ∧ part.numeral = n.toNat := by
  constructor
  · intro read
    unfold component? at read
    split at read
    next value found =>
      obtain ⟨⟨full, digits⟩, same⟩ := Bytes.nat?_eq_some_iff.mp found
      simp only [Option.ite_none_right_eq_some, Option.some.injEq] at read
      obtain ⟨small, rfl⟩ := read
      refine ⟨⟨full, digits, by omega⟩, ?_⟩
      rw [same, Nat.toUInt16_eq, UInt16.toNat_ofNat_of_lt' small]
    next => contradiction
  · rintro ⟨h, same⟩
    have found := Bytes.nat?_eq_some_iff.mpr ⟨⟨h.full, h.digits⟩, same⟩
    simp only [component?, found, if_pos n.toNat_lt]
    simp

/-- Reads a component of a version whose whole text is given. -/
def readComponent (whole part : Bytes) : Except VersionError UInt16 :=
  match component? part with
  | some n => .ok n
  | none => .error (.badComponent part whole)

theorem readComponent_eq_ok_iff {whole part : Bytes} {n : UInt16}
    : readComponent whole part = .ok n ↔ Component part ∧ part.numeral = n.toNat := by
  rw [← component?_eq_some_iff, readComponent]
  cases component? part <;> simp

theorem parse_eq (source : Bytes)
    : parse source
      = if source.trim.isEmpty then .error .empty
        else if (source.trim.splitOn (Bytes.code '.')).length > 4 then
          .error (.tooMany source.trim)
        else ofComponents <$>
          (source.trim.splitOn (Bytes.code '.')).mapM (readComponent source.trim) :=
  rfl

------------------------------------------------------------------------------------------
-- versions
------------------------------------------------------------------------------------------

section Spells

variable {source : Bytes} {parts : List Bytes}

/-- No component has a dot in it, so the components come back when a version is split at its dots.
-/
theorem Spells.splitOn (h : Spells source parts) : source.splitOn (Bytes.code '.') = parts := by
  rw [h.dotted]
  refine Bytes.splitOn_join (fun part mem dot => ?_) h.some
  exact absurd ((h.each part mem).digits _ dot) (by decide)

theorem Spells.ne_nil (h : Spells source parts) : source ≠ [] := by
  rintro rfl
  have pieces : [[]] = parts := h.splitOn
  exact (h.each [] (pieces ▸ List.mem_singleton_self [])).full rfl

/-- What is written as a version between white space is read as the numbers that are written. -/
theorem Spells.parse (h : Spells source.trim parts)
    : ∃ v, parse source = .ok v ∧ v.numbers = written parts := by
  let ns := parts.map fun part => part.numeral.toUInt16
  have small {part : Bytes} (mem : part ∈ parts)
      : part.numeral.toUInt16.toNat = part.numeral := by
    have fits : part.numeral < 2 ^ 16 := Nat.lt_succ_of_le (h.each part mem).small
    rw [Nat.toUInt16_eq, UInt16.toNat_ofNat_of_lt' fits]
  have read : parts.mapM (readComponent source.trim) = .ok ns :=
    mapM_eq_ok fun part mem => readComponent_eq_ok_iff.mpr ⟨h.each part mem, (small mem).symm⟩
  refine ⟨ofComponents ns, ?_, ?_⟩
  · have full : source.trim.isEmpty = false := by simpa using h.ne_nil
    have few : ¬parts.length > 4 := Nat.not_lt.mpr h.few
    rw [parse_eq, full, h.splitOn, if_neg Bool.false_ne_true, if_neg few, read]
    rfl
  · rw [numbers_ofComponents (by simpa [ns] using h.few), written, List.map_map, List.length_map]
    exact congrArg (· ++ _) (List.map_congr_left fun part mem => small mem)

/-- What is read as a version is written as one between white space. -/
theorem spells_of_parse {v : Version} (h : parse source = .ok v)
    : ∃ parts, Spells source.trim parts := by
  have dotted : Bytes.join (text ".") (source.trim.splitOn (Bytes.code '.')) = source.trim :=
    Bytes.join_splitOn _ _
  have some := Bytes.splitOn_ne_nil (Bytes.code '.') source.trim
  rw [parse_eq] at h
  split at h
  next => contradiction
  split at h
  next => contradiction
  next few =>
    refine ⟨_, dotted.symm, some, Nat.not_lt.mp few, fun part mem => ?_⟩
    cases read : (source.trim.splitOn (Bytes.code '.')).mapM (readComponent source.trim) with
    | error e =>
        rw [read] at h
        contradiction
    | ok ns =>
        obtain ⟨n, found⟩ := Decode.ok_of_mapM read mem
        exact (readComponent_eq_ok_iff.mp found).1

theorem parse_eq_ok_iff {v : Version}
    : parse source = .ok v ↔ ∃ parts, Spells source.trim parts ∧ v.numbers = written parts := by
  constructor
  · intro read
    obtain ⟨parts, spells⟩ := spells_of_parse read
    obtain ⟨w, again, numbers⟩ := spells.parse
    obtain rfl : v = w := Except.ok.inj (read.symm.trans again)
    exact ⟨parts, spells, numbers⟩
  · rintro ⟨parts, spells, numbers⟩
    obtain ⟨w, read, same⟩ := spells.parse
    rw [read, numbers_injective (numbers.trans same.symm)]

end Spells

------------------------------------------------------------------------------------------
-- printed versions
------------------------------------------------------------------------------------------

theorem component_decimal (n : UInt16)
    : Component (Bytes.decimal n.toNat) ∧ (Bytes.decimal n.toNat).numeral = n.toNat := by
  rw [← component?_eq_some_iff, component?, Bytes.nat?_decimal]
  simp [n.toNat_lt]

theorem spells_toText (v : Version)
    : Spells v.toText
        ([v.major, v.minor, v.build, v.revision].map fun n => Bytes.decimal n.toNat) where
  dotted := rfl
  some := by simp
  few := by simp
  each part mem := by
    obtain ⟨n, -, rfl⟩ := List.mem_map.mp mem
    exact (component_decimal n).1

/-- Digits and dots are no white space. -/
theorem Spells.bare {source : Bytes} {parts : List Bytes} (h : Spells source parts)
    : source.Bare := by
  refine Bytes.bare_of_visible fun b mem => ?_
  rw [h.dotted] at mem
  rcases Bytes.mem_join mem with dot | ⟨part, listed, digit⟩
  · obtain rfl : b = Bytes.code '.' := List.mem_singleton.mp dot
    decide
  · obtain ⟨low, high⟩ := (h.each part listed).digits b digit
    rw [UInt8.le_iff_toNat_le] at low high
    exact ⟨Nat.lt_of_lt_of_le (by decide) low, Nat.lt_of_le_of_lt high (by decide)⟩

/-- A text is read as a version exactly if what is between the white space at its ends is one to
four components with single dots between them, each of them decimal digits of a number of at most
16 bits. It is read as those numbers, the missing ones being zero, and a printed version is read
back.
-/
theorem parse_dotted_decimals (source : Bytes)
    : source.Trimmed source.trim
      ∧ ((∃ v, parse source = .ok v) ↔ ∃ parts, Spells source.trim parts)
      ∧ (∀ v, parse source = .ok v
        ↔ ∃ parts, Spells source.trim parts ∧ v.numbers = written parts)
      ∧ ∀ v : Version, parse v.toText = .ok v := by
  refine ⟨source.trimmed_trim, ⟨?_, ?_⟩, fun v => parse_eq_ok_iff, fun v => ?_⟩
  · rintro ⟨v, read⟩
    exact spells_of_parse read
  · rintro ⟨parts, spells⟩
    obtain ⟨v, read, -⟩ := spells.parse
    exact ⟨v, read⟩
  · have spells := spells_toText v
    rw [parse_eq_ok_iff, Bytes.trim_of_bare spells.bare]
    exact ⟨_, spells, by simp [written, numbers, (component_decimal _).2]⟩

/-- A version of three components between white space that is not ASCII, with more digits than a
machine number has.
-/
example
    : parse (text "\u30001.00000000000000000000002.65535\u0085")
      = .ok { major := 1, minor := 2, build := 65535 } := by
  cbv

end TapeIL.Version
