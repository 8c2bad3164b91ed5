import TapeIL.IL.Listing
import TapeIL.Proofs.IL.Body
import TapeIL.Proofs.IL.Reference

/-! Listings are read back. Every operand is printed in a form of its own that its reader undoes,
and a branch finds its target again because no two instructions have the same label.
-/

namespace TapeIL

------------------------------------------------------------------------------------------
-- operands
------------------------------------------------------------------------------------------

/-- The operand with the return type of a call set. -/
def Operand.filled : Operand → Operand
  | .method ref => .method ref.filled
  | operand => operand

def Instruction.filled (i : Instruction) : Instruction :=
  { i with operand := i.operand.filled }

/-- The body with the return types of its calls set. -/
def Body.filled (b : Body) : Body :=
  { b with code := b.code.map Instruction.filled }

theorem Body.size_filled (b : Body) : b.filled.size = b.size :=
  Array.size_map

theorem Body.resolve?_filled (b : Body) : b.filled.resolve? = b.resolve? := by
  funext place
  cases place <;> simp [resolve?, size_filled]

/-- A body whose listing says all there is to it: the opcodes are valid, the operands of the kinds
that these take, the types plain, and calls can be read from their signatures. A branch may be
without a target.
-/
structure Body.Plain (b : Body) : Prop where
  valid : ∀ i ∈ b.code, i.op.isValid = true
  kinded : ∀ i ∈ b.code, i.operand.kind? = some i.op.operandKind
    ∨ i.op.isBranch = true ∧ i.operand = .none
  locals : ∀ t ∈ b.locals, t.Plain
  types : ∀ i ∈ b.code, ∀ t ∈ i.type?, t.Plain
  calls : ∀ i ∈ b.code, ∀ ref ∈ i.method?, MethodRef.parse ref.signature = .ok ref.filled

theorem ok_of_map {α β ε : Type} {result : Except ε α} {f : α → β} {y : β}
    (h : result.map f = .ok y)
    : ∃ x, result = .ok x ∧ f x = y := by
  cases result with
  | error e => cases h
  | ok x => exact ⟨x, rfl, Except.ok.inj h⟩

theorem OpCode.ofMnemonic?_name {op : OpCode} (valid : op.isValid = true)
    : OpCode.ofMnemonic? op.name = some op := by
  have all : ∀ op ∈ OpCode.all, OpCode.ofMnemonic? op.name = some op := by decide +kernel
  have listed : op ∈ OpCode.all := by
    cases op <;> first | decide | contradiction
  exact all op listed

namespace Listing

theorem int32?_decimalInt (value : Int32) : int32? (Bytes.decimalInt value.toInt) = some value := by
  have low := value.le_toInt
  have high := value.toInt_lt
  have fits : -0x80000000 ≤ value.toInt ∧ value.toInt < 0x80000000 := by omega
  simp only [int32?, Bytes.int?_decimalInt, if_pos fits, Int32.ofInt_toInt]

theorem slot?_decimal (index : UInt8) : slot? (Bytes.decimal index.toNat) = some index := by
  simp only [slot?, Bytes.nat?_decimal, if_pos index.toNat_lt]
  simp

/-- The entry of an instruction at a position of a body. -/
def entryAt (b : Body) (i : Instruction) (index : Nat) : Entry :=
  { offset := Body.offsetLabel (b.offsetAt index)
    op := i.op.name
    operand := i.operand.toText b.label }

/-- What is read from the entry of an instruction: a branch still leads to a label. -/
def draftOf (b : Body) (i : Instruction) : Draft :=
  if i.op.isBranch then .branch i.op (i.operand.toText b.label) else .done i.filled

theorem draft_branch {op : OpCode} (branch : op.isBranch = true) (operand : Bytes)
    : draft op operand = .ok (.branch op operand) := by
  have kind : op.operandKind = .target := by simpa [OpCode.isBranch] using branch
  simp only [draft, kind]

/-- A printed operand is read back, whatever the labels are, by cases on the operand. -/
theorem draft_toText {i : Instruction} (label : Target → Bytes) (other : i.op.isBranch = false)
    (kinded : i.operand.kind? = some i.op.operandKind) (types : ∀ t ∈ i.type?, t.Plain)
    (calls : ∀ ref ∈ i.method?, MethodRef.parse ref.signature = .ok ref.filled)
    : draft i.op (i.operand.toText label) = .ok (.done i.filled) := by
  obtain ⟨op, operand⟩ := i
  cases operand with
  | words content => simp [Operand.kind?] at kinded
  | target place =>
      have kind : op.operandKind = .target := Option.some.inj kinded.symm
      simp [OpCode.isBranch, kind] at other
  | none =>
      have kind : op.operandKind = .none := Option.some.inj kinded.symm
      simp [draft, kind, Operand.toText, Instruction.filled, Operand.filled]
  | int value =>
      have kind : op.operandKind = .int := Option.some.inj kinded.symm
      simp [draft, kind, Operand.toText, Instruction.filled, Operand.filled, int32?_decimalInt]
  | slot index =>
      have kind : op.operandKind = .slot := Option.some.inj kinded.symm
      simp [draft, kind, Operand.toText, Instruction.filled, Operand.filled, slot?_decimal]
  | type ref =>
      have kind : op.operandKind = .type := Option.some.inj kinded.symm
      simp [draft, kind, Operand.toText, Instruction.filled, Operand.filled,
        (types ref rfl).parse_fullName]
  | method ref =>
      have kind : op.operandKind = .method := Option.some.inj kinded.symm
      simp [draft, kind, Operand.toText, Instruction.filled, Operand.filled, calls ref rfl]

/-- An entry is read as the instruction that it was written for. -/
theorem draftEntry_entryAt {b : Body} (h : b.Plain) {i : Instruction} (mem : i ∈ b.code)
    (index : Nat)
    : draftEntry (entryAt b i index) = .ok (draftOf b i) := by
  rw [draftEntry, entryAt, OpCode.ofMnemonic?_name (h.valid i mem)]
  change draft i.op (i.operand.toText b.label) = .ok (draftOf b i)
  cases branch : i.op.isBranch with
  | true =>
      rw [draftOf, if_pos branch]
      exact draft_branch branch _
  | false =>
      have kinded : i.operand.kind? = some i.op.operandKind :=
        (h.kinded i mem).resolve_right fun other => by simp [branch] at other
      rw [draftOf, branch, if_neg Bool.false_ne_true]
      exact draft_toText _ branch kinded (h.types i mem) (h.calls i mem)

------------------------------------------------------------------------------------------
-- labels
------------------------------------------------------------------------------------------

/-- Entries are written for the instructions and their offsets. -/
theorem entries_ofBody (name : Bytes) (b : Body)
    : (ofBody name b).entries = b.code.toList.zipIdx.map fun (i, index) => entryAt b i index := by
  rw [ofBody, b.zip_offsets, List.map_map]
  rfl

theorem offsetLabel_injective {first second : Nat}
    (h : Body.offsetLabel first = Body.offsetLabel second)
    : first = second :=
  Bytes.hex_injective (List.append_cancel_left h)

/-- A label with a character that is no digit is not of an offset. -/
theorem offsetLabel_ne_outside (offset : Nat) : Body.offsetLabel offset ≠ text "IL_????" := by
  intro same
  have same : text "IL_" ++ Bytes.hex 4 offset = text "IL_" ++ text "????" := same
  have mark : Bytes.code '?' ∈ Bytes.hex 4 offset := by
    rw [List.append_cancel_left same]
    decide
  obtain ⟨d, small, digit⟩ := Bytes.hex_digits mark
  have none : ∀ d < 16, Bytes.code '?' ≠ Bytes.code d.digitChar := by decide
  exact none d small digit

theorem zipIdx_entries (name : Bytes) (b : Body)
    : (ofBody name b).entries.zipIdx
      = b.code.toList.zipIdx.map fun (i, index) => (entryAt b i index, index) := by
  refine List.ext_getElem? fun index => ?_
  cases here : b.code.toList[index]? <;> simp [entries_ofBody, here]

theorem labels_ofBody (name : Bytes) (b : Body)
    : labels (ofBody name b).entries
      = Std.HashMap.ofList ((List.range b.size).map fun index =>
          (Body.offsetLabel (b.offsetAt index), index)) := by
  have labelled : (ofBody name b).entries.zipIdx.filter (fun e => !e.1.offset.isEmpty)
      = (ofBody name b).entries.zipIdx := by
    rw [List.filter_eq_self, zipIdx_entries]
    intro entry listed
    obtain ⟨⟨i, index⟩, -, rfl⟩ := List.mem_map.mp listed
    rfl
  have indices : b.code.toList.zipIdx.map Prod.snd = List.range b.size := by
    rw [List.zipIdx_map_snd, List.range_eq_range', Array.length_toList, Body.size]
  rw [labels, labelled, zipIdx_entries, List.map_map, ← indices, List.map_map]
  rfl

theorem labels_offsetLabel (name : Bytes) {b : Body} {index : Nat} (inside : index < b.size)
    : (labels (ofBody name b).entries)[Body.offsetLabel (b.offsetAt index)]? = some index := by
  rw [labels_ofBody]
  refine Std.HashMap.getElem?_ofList_of_mem (beq_self_eq_true _) ?_ ?_
  · rw [List.pairwise_map]
    refine List.pairwise_lt_range.imp_of_mem ?_
    intro first second before _ order
    have differ := Body.offsetAt_lt order (List.mem_range.mp before)
    simpa using fun same => Nat.ne_of_lt differ (offsetLabel_injective same)
  · exact List.mem_map.mpr ⟨index, List.mem_range.mpr inside, rfl⟩

theorem labels_eq_none (name : Bytes) (b : Body) {label : Bytes}
    (other : ∀ offset, Body.offsetLabel offset ≠ label)
    : (labels (ofBody name b).entries)[label]? = none := by
  rw [labels_ofBody]
  refine Std.HashMap.getElem?_ofList_of_contains_eq_false ?_
  rw [List.map_map, ← Bool.not_eq_true, List.contains_iff_mem]
  intro listed
  obtain ⟨index, -, same⟩ := List.mem_map.mp listed
  exact other _ same

------------------------------------------------------------------------------------------
-- branches
------------------------------------------------------------------------------------------

/-- A branch into the body is resolved to the position that it leads to. -/
theorem resolve_inside (name : Bytes) {b : Body} {i : Instruction} {index : Nat}
    (branch : i.op.isBranch = true) (found : b.branch? i = some index)
    : resolve (labels (ofBody name b).entries) (draftOf b i) = .ok i.filled := by
  have inside := Body.branch?_lt found
  obtain ⟨op, operand⟩ := i
  obtain rfl : operand = .target (.position index) := Body.operand_of_branch found
  simp only [draftOf, branch, if_true, Operand.toText, Body.label_position inside, resolve,
    labels_offsetLabel name inside]
  rfl

/-- A branch that leads nowhere is not resolved: it has no label, or the one that stands for all
places outside.
-/
theorem resolve_outside (name : Bytes) {b : Body} (h : b.Plain) {i : Instruction} (mem : i ∈ b.code)
    (branch : i.op.isBranch = true) (lost : b.branch? i = none)
    : resolve (labels (ofBody name b).entries) (draftOf b i)
      = .error (.undefinedTarget (i.operand.toText b.label)) := by
  have kind : i.op.operandKind = .target := by simpa [OpCode.isBranch] using branch
  have none : (labels (ofBody name b).entries)[i.operand.toText b.label]? = none := by
    refine labels_eq_none name b ?_
    rcases h.kinded i mem with kinded | ⟨-, empty⟩
    · obtain ⟨op, operand⟩ := i
      obtain ⟨place, rfl⟩ : ∃ place, operand = .target place := by
        cases operand <;> simp_all [Operand.kind?]
      have label : b.label place = text "IL_????" := by
        rw [Body.branch?_target] at lost
        simp only [Body.label, lost]
      rw [Operand.toText, label]
      exact offsetLabel_ne_outside
    · rw [empty]
      intro offset same
      cases same
  simp only [draftOf, branch, if_true, resolve, none]

theorem resolve_other (labels : Std.HashMap Bytes Nat) (b : Body) {i : Instruction}
    (other : i.op.isBranch = false)
    : resolve labels (draftOf b i) = .ok i.filled := by
  simp only [draftOf, other, Bool.false_eq_true, if_false, resolve]

------------------------------------------------------------------------------------------
-- bodies
------------------------------------------------------------------------------------------

/-- Reading a listing comes down to resolving its branches. -/
theorem body_ofBody (name : Bytes) {b : Body} (h : b.Plain)
    : (ofBody name b).body
      = ((b.code.toList.map (draftOf b)).mapM (resolve (labels (ofBody name b).entries))).map
          fun code => { locals := b.locals, code := code.toArray } := by
  have locals : ((ofBody name b).locals.mapM fun name =>
      (TypeRef.parse name).mapError (ListingError.localType name)) = .ok b.locals := by
    refine TypeRef.mapM_fullName fun t mem => ?_
    rw [(h.locals t mem).parse_fullName]
    rfl
  have drafts : ((ofBody name b).entries.zipIdx.mapM fun e =>
      (draftEntry e.1).mapError (ListingError.entry e.2))
      = .ok (b.code.toList.zipIdx.map fun i => draftOf b i.1) := by
    rw [zipIdx_entries, List.mapM_map]
    refine mapM_eq_ok fun i listed => ?_
    have mem : i.1 ∈ b.code := Array.mem_toList_iff.mp (List.fst_mem_of_mem_zipIdx listed)
    simp only [Function.comp_apply, draftEntry_entryAt h mem]
    rfl
  have code : (b.code.toList.zipIdx.map fun i => draftOf b i.1)
      = b.code.toList.map (draftOf b) := by
    conv => rhs; rw [← List.zipIdx_map_fst 0 b.code.toList, List.map_map]
    rfl
  simp only [body, locals, drafts, code, bind, Except.bind]
  cases (b.code.toList.map (draftOf b)).mapM (resolve (labels (ofBody name b).entries)) <;> rfl

/-- Where every branch leads into the body, all of the listing is read. -/
theorem body_of_inside (name : Bytes) {b : Body} (h : b.Plain) (good : b.badTarget? = none)
    : (ofBody name b).body = .ok b.filled := by
  have code : (b.code.toList.map (draftOf b)).mapM (resolve (labels (ofBody name b).entries))
      = .ok (b.code.toList.map Instruction.filled) := by
    rw [List.mapM_map]
    refine mapM_eq_ok fun i listed => ?_
    have mem : i ∈ b.code := Array.mem_toList_iff.mp listed
    rw [Function.comp_apply]
    cases branch : i.op.isBranch with
    | false => exact resolve_other _ b branch
    | true =>
        obtain ⟨index, found⟩ := Option.isSome_iff_exists.mp (Body.branch?_isSome good mem branch)
        exact resolve_inside name branch found
  rw [body_ofBody name h, code, ← Array.toList_map, Except.map, Array.toArray_toList]
  rfl

/-- Where a listing is read, every branch led into the body. -/
theorem badTarget?_of_body (name : Bytes) {b read : Body} (h : b.Plain)
    (ok : (ofBody name b).body = .ok read)
    : b.badTarget? = none := by
  rw [body_ofBody name h] at ok
  obtain ⟨code, resolved, -⟩ := ok_of_map ok
  rw [List.mapM_map] at resolved
  refine Body.badTarget?_eq_none fun i mem branch => ?_
  obtain ⟨x, found⟩ := Decode.ok_of_mapM resolved (Array.mem_toList_iff.mpr mem)
  cases lost : b.branch? i with
  | some index => rfl
  | none =>
      have fails := resolve_outside name h mem branch lost
      rw [Function.comp_apply, fails] at found
      cases found

end Listing

/-- What is set in the calls of a body is printed already, so the body stays the same. -/
theorem Body.same_filled (b : Body) : b.same b.filled = true := by
  have mnemonic : b.filled.mnemonic = b.mnemonic := by
    funext place
    cases place with
    | outside op | unset => rfl
    | position index => simp [Body.mnemonic, filled, Instruction.filled, Function.comp_def]
  have each (i : Instruction) : sameInstruction b b.filled i i.filled = true := by
    obtain ⟨op, operand⟩ := i
    cases operand <;>
      simp [sameInstruction, Instruction.filled, Operand.filled, branch?, Instruction.target?,
        resolve?_filled, mnemonic, Operand.toText, MethodRef.signature_filled]
  have pairs : b.code.toList.zip b.filled.code.toList
      = b.code.toList.map fun i => (i, i.filled) := by
    have zipped : (b.code.toList.map id).zip (b.code.toList.map Instruction.filled)
        = b.code.toList.map fun i => (i, i.filled) := List.zip_map'
    rwa [List.map_id, ← Array.toList_map] at zipped
  have locals : b.filled.locals = b.locals := rfl
  simp [same, locals, size_filled, pairs, each]

namespace Listing

/-- A document gives what the listing gives that it is read as. -/
theorem loadWith_of_read {read : Bytes → Except Yaml.ReadError Listing} {source : Bytes}
    {l : Listing} {b : Body} (document : read source = .ok l) (described : l.body = .ok b)
    : loadWith read source = .ok (l.method, b) := by
  rw [loadWith, document]
  simp only [described]
  rfl

/-- The listing of a plain body is read exactly if every branch leads into the body, and then gives
the body with the return types of its calls set, which is the same body. A document that is read as
the listing it was written for gives back the name as well, whatever writes and reads documents.
-/
theorem body_read_back (name : Bytes) {b : Body} (h : b.Plain)
    : ((∃ read, (ofBody name b).body = .ok read) ↔ b.badTarget? = none)
      ∧ (b.badTarget? = none
        → (ofBody name b).body = .ok b.filled ∧ b.same b.filled = true
          ∧ (∀ (write : Listing → Bytes) (read : Bytes → Except Yaml.ReadError Listing),
            read (write (ofBody name b)) = .ok (ofBody name b)
            → loadWith read (write (ofBody name b)) = .ok (name, b.filled))
          ∧ (Yaml.read reader {} (ofBody name b).toYaml = .ok (ofBody name b)
            → load (ofBody name b).toYaml = .ok (name, b.filled))) := by
  refine ⟨⟨?_, ?_⟩, ?_⟩
  · rintro ⟨read, ok⟩
    exact badTarget?_of_body name h ok
  · intro good
    exact ⟨b.filled, body_of_inside name h good⟩
  · intro good
    have read := body_of_inside name h good
    exact ⟨read, b.same_filled, fun _ _ document => loadWith_of_read document read,
      fun document => loadWith_of_read document read⟩

/-- A body with operands of all kinds, among them the least number, a call without a return type
and branches in both directions.
-/
theorem body_read_back_kinds
    : let call : MethodRef :=
        { owner := ⟨text "Tape", text "Store"⟩, name := text "put", params := [.byte, .char] }
      let b : Body :=
        { locals := [.byte, ⟨text "Tape", text "Cells"⟩]
          code := #[
            ⟨.br, .target (.position 4)⟩, ⟨.ldcI4, .int Int32.minValue⟩, ⟨.newarr, .type .byte⟩,
            ⟨.ldlocaS, .slot 255⟩, ⟨.call, .method call⟩, ⟨.brtrue, .target (.position 1)⟩,
            ⟨.ret, .none⟩] }
      let l := ofBody (text "Tape::run") b
      b.Plain ∧ b.badTarget? = none ∧ l.body = .ok b.filled
        ∧ load l.toYaml = .ok (text "Tape::run", b.filled) := by
  intro call b l
  have called : call.Plain :=
    ⟨.inl rfl, by decide +kernel, by decide, by decide +kernel⟩
  have only : ∀ i ∈ b.code, ∀ ref ∈ i.method?, ref = call := by decide
  have calls : ∀ i ∈ b.code, ∀ ref ∈ i.method?,
      MethodRef.parse ref.signature = .ok ref.filled := by
    intro i mem ref found
    rw [only i mem ref found]
    exact called.parse_signature
  have plain : b.Plain := ⟨by decide, by decide, by decide +kernel, by decide +kernel, calls⟩
  have good : b.badTarget? = none := by decide
  have document : Yaml.read reader {} l.toYaml = .ok l := by
    have some : (Yaml.read reader {} l.toYaml).toOption = some l := by decide +kernel
    cases read : Yaml.read reader {} l.toYaml with
    | error e => simp [read, Except.toOption] at some
    | ok other =>
        rw [read] at some
        rw [Option.some.inj some]
  obtain ⟨read, -, -, loaded⟩ := (body_read_back (text "Tape::run") plain).2 good
  exact ⟨plain, good, read, loaded document⟩

end Listing
end TapeIL
