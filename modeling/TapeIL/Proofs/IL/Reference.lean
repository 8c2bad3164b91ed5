import TapeIL.IL.Reference
import TapeIL.Proofs.Bytes
import TapeIL.Proofs.Module.Stored
import TapeIL.Proofs.Text.Glyph

/-! References are read back from their printed forms, as long as no cut of the reader lands inside
a name. Signatures then tell such references apart, and so do the rows of a reference table.
-/

namespace TapeIL

/-- A list is read item by item if each item can be, by induction on the list. -/
theorem mapM_eq_ok {α β ε : Type} {read : α → Except ε β} {f : α → β} {xs : List α}
    (each : ∀ x ∈ xs, read x = .ok (f x))
    : xs.mapM read = .ok (xs.map f) := by
  induction xs with
  | nil => rfl
  | cons x xs ih =>
      rw [List.forall_mem_cons] at each
      rw [List.mapM_cons, each.1, ih each.2]
      rfl

------------------------------------------------------------------------------------------
-- types
------------------------------------------------------------------------------------------

namespace TypeRef

/-- A type whose full name says where its namespace ends: its name is not empty and has no dot in
it, and no white space is at the ends of the full name.
-/
structure Plain (t : TypeRef) : Prop where
  named : t.name ≠ []
  undotted : Bytes.code '.' ∉ t.name
  bare : t.fullName.Bare

instance (t : TypeRef) : Decidable t.Plain :=
  decidable_of_iff (t.name ≠ [] ∧ Bytes.code '.' ∉ t.name ∧ t.fullName.Bare)
    ⟨fun ⟨named, undotted, bare⟩ => ⟨named, undotted, bare⟩,
      fun h => ⟨h.named, h.undotted, h.bare⟩⟩

variable {t : TypeRef}

theorem Plain.fullName_ne_nil (h : t.Plain) : t.fullName ≠ [] := by
  unfold fullName
  split
  · exact h.named
  · simp [h.named]

/-- A plain type is read back from its full name. -/
theorem Plain.parse_fullName (h : t.Plain) : parse t.fullName = .ok t := by
  have full : t.fullName.isEmpty = false := by simpa using h.fullName_ne_nil
  have trimmed := Bytes.trim_of_bare h.bare
  obtain ⟨ns, name⟩ := t
  cases ns with
  | nil =>
      have undotted : Bytes.cutLast? (Bytes.code '.') name = none :=
        Bytes.cutLast?_eq_none h.undotted
      change Bytes.trim name = name at trimmed
      change name.isEmpty = false at full
      simp only [parse, fullName, List.isEmpty_nil, if_true, trimmed, full, undotted,
        Bool.false_eq_true, if_false]
  | cons b ns =>
      have dotted : TypeRef.fullName ⟨b :: ns, name⟩ = (b :: ns) ++ Bytes.code '.' :: name := by
        simp only [fullName, List.isEmpty_cons, Bool.false_eq_true, if_false, List.append_assoc]
        rfl
      have last : name.isEmpty = false := by simpa using h.named
      have cut := Bytes.cutLast?_append (b :: ns) h.undotted
      rw [← dotted] at cut
      simp only [parse, trimmed, full, cut, last, List.isEmpty_cons, Bool.or_self,
        Bool.false_eq_true, if_false]

theorem plain_void : TypeRef.void.Plain := by
  decide +kernel

/-- Types are read back from their full names one by one. -/
theorem mapM_fullName {ε : Type} {read : Bytes → Except ε TypeRef} {types : List TypeRef}
    (each : ∀ t ∈ types, read t.fullName = .ok t)
    : (types.map fullName).mapM read = .ok types := by
  rw [List.mapM_map]
  have ok : types.mapM (read ∘ fullName) = .ok (types.map id) := mapM_eq_ok each
  rwa [List.map_id] at ok

end TypeRef

------------------------------------------------------------------------------------------
-- methods
------------------------------------------------------------------------------------------

namespace MethodRef

/-- A reference whose signature can be read in one way only: its types are plain, and what ends a
part of the signature is not in that part.
-/
structure Plain (m : MethodRef) : Prop where
  ret : m.ret.isUnset = true
    ∨ m.ret.Plain ∧ Bytes.code ' ' ∉ m.ret.fullName
      ∧ (m.hasThis = false → m.ret.fullName ≠ text "instance")
  owner : m.owner.Plain ∧ ¬text "::" <:+: m.owner.fullName
    ∧ m.owner.fullName.getLast? ≠ some (Bytes.code ':')
  name : m.name ≠ [] ∧ Bytes.code '(' ∉ m.name
  params : ∀ p ∈ m.params, p.Plain ∧ Bytes.code ',' ∉ p.fullName

variable {m : MethodRef}

/-- The return type as it is printed. -/
theorem Plain.returned (h : m.Plain)
    : m.returned.Plain ∧ Bytes.code ' ' ∉ m.returned.fullName
      ∧ (m.hasThis = false → m.returned.fullName ≠ text "instance") := by
  unfold MethodRef.returned
  rcases h.ret with unset | plain
  · rw [if_pos unset]
    exact ⟨TypeRef.plain_void, by decide, fun _ => by decide⟩
  · split
    next => exact ⟨TypeRef.plain_void, by decide, fun _ => by decide⟩
    next => exact plain

/-- The parameters with commas between them. -/
def paramText (m : MethodRef) : Bytes :=
  Bytes.join (text ",") (m.params.map TypeRef.fullName)

/-- What follows the declaring type in a signature. -/
def callText (m : MethodRef) : Bytes :=
  m.name ++ text "(" ++ (m.paramText ++ text ")")

/-- A signature without the mark of instance methods. -/
def spelled (m : MethodRef) : Bytes :=
  m.returned.fullName ++ text " " ++ (m.owner.fullName ++ text "::" ++ m.callText)

theorem signature_eq (m : MethodRef)
    : m.signature = (if m.hasThis then text "instance " else []) ++ m.spelled := by
  simp only [signature, spelled, callText, paramText, List.append_assoc]

/-- A signature begins with the mark or with the return type, and ends with a bracket. -/
theorem Plain.bare_signature (h : m.Plain) : m.signature.Bare := by
  have enclosed (first middle : Bytes) (bare : first.Bare) (begins : first ≠ [])
      : (first ++ (text " " ++ middle ++ text ")")).Bare :=
    bare.enclose _ (by decide +kernel) begins (by decide) (Glyph.starts_cons rfl _)
      (Glyph.starts_cons rfl _)
  have closed : m.spelled = m.returned.fullName ++ (text " " ++ (m.owner.fullName ++ text "::"
      ++ m.name ++ text "(" ++ m.paramText) ++ text ")") := by
    simp only [spelled, callText, List.append_assoc]
  rw [signature_eq]
  cases m.hasThis with
  | true =>
      have marked : text "instance " ++ m.spelled = text "instance" ++ (text " "
          ++ (m.returned.fullName ++ text " " ++ m.owner.fullName ++ text "::" ++ m.name
            ++ text "(" ++ m.paramText) ++ text ")") := by
        rw [closed]
        simp only [List.append_assoc]
        rfl
      rw [if_pos rfl, marked]
      exact enclosed _ _ (by decide +kernel) (by decide)
  | false =>
      rw [if_neg Bool.false_ne_true, List.nil_append, closed]
      exact enclosed _ _ h.returned.1.bare h.returned.1.fullName_ne_nil

/-- The mark of instance methods is not taken from the return type of a method without it. -/
theorem Plain.after?_spelled (h : m.Plain) (unbound : m.hasThis = false)
    : Bytes.after? (text "instance ") m.spelled = none := by
  obtain ⟨-, unspaced, other⟩ := h.returned
  refine Bytes.after?_eq_none ?_
  rintro ⟨rest, same⟩
  have mark : Bytes.cut? (text " ") (text "instance" ++ text " " ++ rest)
      = some (text "instance", rest) := Bytes.cut?_byte rest (by decide)
  have ret : Bytes.cut? (text " ") m.spelled = some (m.returned.fullName, _) :=
    Bytes.cut?_byte _ unspaced
  rw [← same] at ret
  exact other unbound (Prod.mk.inj (Option.some.inj (ret.symm.trans mark))).1

theorem Plain.parseCall?_callText (h : m.Plain)
    : parseCall? m.callText = some (m.name, m.paramText) := by
  have named : m.name.isEmpty = false := by simpa using h.name.1
  have cut : Bytes.cut? (text "(") m.callText = some (m.name, m.paramText ++ text ")") :=
    Bytes.cut?_byte _ h.name.2
  have last : (m.paramText ++ text ")").getLast? = some (Bytes.code ')') := List.getLast?_concat
  have front : (m.paramText ++ text ")").dropLast = m.paramText := List.dropLast_concat
  simp [parseCall?, cut, named, last, front]

/-- A declaring type ends at the first pair of colons. -/
theorem Plain.cut?_owner (h : m.Plain)
    : Bytes.cut? (text "::") (m.owner.fullName ++ text "::" ++ m.callText)
      = some (m.owner.fullName, m.callText) := by
  obtain ⟨-, absent, last⟩ := h.owner
  refine Bytes.cut?_append _ ?_
  rintro ⟨front, back, parts⟩
  cases back using List.reverseRecOn with
  | nil =>
      -- the pair would end in the colon behind the name, so the name would end in the other one
      have ends := congrArg (fun bs => bs.dropLast.getLast?) parts
      have colons : (front ++ text "::" ++ []).dropLast.getLast? = some (Bytes.code ':') := by
        rw [List.append_nil, List.dropLast_append_of_ne_nil (by decide)]
        exact List.getLast?_concat
      have name : (m.owner.fullName ++ (text "::").dropLast).dropLast = m.owner.fullName :=
        List.dropLast_concat
      simp only [colons, name] at ends
      exact last ends.symm
  | append_singleton back b =>
      have inside := congrArg List.dropLast parts
      rw [← List.append_assoc, List.dropLast_concat] at inside
      exact absent ⟨front, back, inside.trans List.dropLast_concat⟩

/-- The text of parameters is empty if there are none, and is otherwise read back. -/
theorem Plain.params_read (h : m.Plain)
    : m.paramText.isEmpty = true ∧ m.params = []
      ∨ m.paramText.isEmpty = false
        ∧ (m.paramText.splitOn (Bytes.code ',')).mapM TypeRef.parse = .ok m.params := by
  cases none : m.params with
  | nil => exact .inl ⟨by simp [paramText, none, Bytes.join], rfl⟩
  | cons p params =>
      have split : m.paramText.splitOn (Bytes.code ',') = m.params.map TypeRef.fullName := by
        refine Bytes.splitOn_join ?_ (by simp [none])
        intro piece listed
        obtain ⟨p, mem, rfl⟩ := List.mem_map.mp listed
        exact (h.params p mem).2
      refine .inr ⟨?_, ?_⟩
      · cases empty : m.paramText with
        | cons b rest => rfl
        | nil =>
            -- an empty text splits into one empty piece, which no plain type has as its name
            rw [empty, none, List.map_cons] at split
            have first : [] = p.fullName := (List.cons.inj split).1
            exact absurd first.symm (h.params p (by simp [none])).1.fullName_ne_nil
      · rw [split, ← none]
        exact TypeRef.mapM_fullName fun p mem => (h.params p mem).1.parse_fullName

/-- Reads a signature behind the mark of instance methods. -/
def parseSpelled (hasThis : Bool) (whole : Bytes) : Except RefError MethodRef := do
  let some (retText, rest) := Bytes.cut? (text " ") whole | .error (.noReturnType whole)
  let ret ← TypeRef.parse retText
  let some (ownerText, rest) := Bytes.cut? (text "::") rest | .error (.noDeclaringType whole)
  let owner ← TypeRef.parse ownerText
  let some (name, paramText) := parseCall? rest | .error (.noParameters whole)
  if paramText.isEmpty then
    return { hasThis, ret, owner, name }
  let params ← (paramText.splitOn (Bytes.code ',')).mapM TypeRef.parse
  return { hasThis, ret, owner, name, params }

theorem parse_eq (source : Bytes)
    : parse source
      = match Bytes.after? (text "instance ") source.trim with
        | some rest => parseSpelled true rest
        | none => parseSpelled false source.trim := by
  unfold parse
  dsimp only
  cases Bytes.after? (text "instance ") source.trim <;> rfl

theorem Plain.parseSpelled_spelled (h : m.Plain)
    : parseSpelled m.hasThis m.spelled = .ok m.filled := by
  have ret : Bytes.cut? (text " ") m.spelled = some (m.returned.fullName, _) :=
    Bytes.cut?_byte _ h.returned.2.1
  simp only [parseSpelled, ret, h.cut?_owner, h.returned.1.parse_fullName,
    h.owner.1.parse_fullName, h.parseCall?_callText]
  rcases h.params_read with ⟨empty, none⟩ | ⟨full, read⟩
  · simp only [bind, Except.bind, empty, if_true]
    rw [filled, none]
    rfl
  · simp only [bind, Except.bind, full, Bool.false_eq_true, if_false, read]
    rfl

/-- A reference is read back from its signature with its return type set. -/
theorem Plain.parse_signature (h : m.Plain) : parse m.signature = .ok m.filled := by
  rw [parse_eq, Bytes.trim_of_bare h.bare_signature, signature_eq]
  cases bound : m.hasThis with
  | true =>
      rw [if_pos rfl, Bytes.after?_append, ← bound]
      exact h.parseSpelled_spelled
  | false =>
      rw [if_neg Bool.false_ne_true, List.nil_append, h.after?_spelled bound, ← bound]
      exact h.parseSpelled_spelled

end MethodRef

/-- Calls have the same row in a table exactly if they print alike. -/
theorem References.Lists.memberRow_eq_iff {r : References} {used : Use → Prop} (h : Lists r used)
    {m other : MethodRef} (first : used (.member m)) (second : used (.member other))
    : r.memberRow m = r.memberRow other ↔ m.signature = other.signature := by
  constructor
  · intro same
    obtain ⟨k, listed, row, found, signature, -⟩ := h.row_of_member first
    obtain ⟨j, also, place, there, alike, -⟩ := h.row_of_member second
    obtain rfl : k = j := by omega
    obtain rfl : listed = also := Option.some.inj (found.symm.trans there)
    exact signature.symm.trans alike
  · intro same
    rw [References.memberRow, References.memberRow, same]

namespace MethodRef

/-- A reference is read back from its signature with its return type set, if its types are plain
and no part of the signature has in it what ends that part. Such references print alike, and share
a row in the table of a module, exactly if they are the same but for return types that are not set.
-/
theorem signature_read_back {m : MethodRef} (h : m.Plain)
    : parse m.signature = .ok m.filled
      ∧ ∀ other : MethodRef, other.Plain
        → (m.signature = other.signature ↔ m.filled = other.filled)
          ∧ ∀ home : Module, m ∈ home.calls → other ∈ home.calls
            → ((References.ofModule home).memberRow m = (References.ofModule home).memberRow other
              ↔ m.filled = other.filled) := by
  refine ⟨h.parse_signature, fun other plain => ?_⟩
  have alike : m.signature = other.signature ↔ m.filled = other.filled := by
    constructor
    · intro same
      have read := h.parse_signature
      rw [same, plain.parse_signature] at read
      exact (Except.ok.inj read).symm
    · intro same
      rw [← signature_filled m, same, signature_filled]
  refine ⟨alike, fun home first second => ?_⟩
  rw [← alike]
  exact (References.lists_ofModule home).memberRow_eq_iff (Module.mem_calls.mp first)
    (Module.mem_calls.mp second)

/-- Names with blanks, dots, colons and brackets in them, once with a return type that is not set
and once with the one that it prints as.
-/
theorem signature_read_back_brackets
    : let m : MethodRef :=
        { hasThis := true
          owner := ⟨text "a b. c", text "D:(e"⟩
          name := text ":f::g),h"
          params := [⟨text "n.(", text "p) q::"⟩, ⟨[], text "\u00e9 r"⟩] }
      let other := { m with ret := .void }
      let home : Module :=
        { name := []
          version := {}
          id := .ofBytes []
          types := [
            { ns := [], name := [], base := .object
              methods := [
                { name := []
                  body := { code := #[⟨.call, .method m⟩, ⟨.call, .method other⟩] } }] }] }
      m.Plain ∧ other.Plain ∧ m ∈ home.calls ∧ other ∈ home.calls
        ∧ parse m.signature = .ok other ∧ m.signature = other.signature
        ∧ (References.ofModule home).memberRow m = (References.ofModule home).memberRow other := by
  intro m other home
  have owner : m.owner.Plain ∧ ¬text "::" <:+: m.owner.fullName
      ∧ m.owner.fullName.getLast? ≠ some (Bytes.code ':') := by
    decide +kernel
  have params : ∀ p ∈ m.params, p.Plain ∧ Bytes.code ',' ∉ p.fullName := by decide +kernel
  have plain : m.Plain := ⟨.inl rfl, owner, by decide, params⟩
  have void : other.Plain :=
    ⟨.inr ⟨TypeRef.plain_void, by decide, by decide⟩, owner, by decide, params⟩
  have first : m ∈ home.calls := by decide
  have second : other ∈ home.calls := by decide
  have same : m.filled = other.filled := by decide
  obtain ⟨read, others⟩ := signature_read_back plain
  obtain ⟨alike, rows⟩ := others other void
  exact ⟨plain, void, first, second, read, alike.mpr same, (rows home first second).mpr same⟩

end MethodRef
end TapeIL
