import TapeIL.Proofs.IL.Listing
import TapeIL.Proofs.Module.Execution

/-! Two bodies are the same exactly if they have the same locals and the same instructions, because
an operand can be told from its printed form. Bodies that are the same print alike and run alike.
-/

namespace TapeIL

------------------------------------------------------------------------------------------
-- instructions
------------------------------------------------------------------------------------------

theorem MethodRef.filled_filled (ref : MethodRef) : ref.filled.filled = ref.filled := by
  rw [filled, returned_filled]
  rfl

theorem Operand.toText_filled (label : Target → Bytes) (operand : Operand)
    : operand.filled.toText label = operand.toText label := by
  cases operand <;> simp [filled, toText, MethodRef.signature_filled]

/-- Only the targets of branches have labels. -/
theorem Operand.toText_congr {operand : Operand} (first second : Target → Bytes)
    (other : operand.kind? ≠ some .target)
    : operand.toText first = operand.toText second := by
  cases operand <;> first | rfl | contradiction

/-- What is stored of an instruction is the same when the return type of its call is set. -/
theorem Instruction.stored_filled (b : Body) (i : Instruction)
    : i.filled.stored MethodRef.filled b = i.stored MethodRef.filled b := by
  obtain ⟨op, operand⟩ := i
  cases operand with
  | method ref =>
      cases op
      case call =>
        change (⟨.call, .method ref.filled.filled⟩ : Instruction) = ⟨.call, .method ref.filled⟩
        rw [ref.filled_filled]
      all_goals rfl
  | _ => rfl

/-- Only the branches of a body are stored by where they lead in it. -/
theorem Instruction.stored_congr (call : MethodRef → MethodRef) (a b : Body) {i : Instruction}
    (other : i.op.isBranch = false)
    : i.stored call a = i.stored call b := by
  unfold stored storedOperand
  cases kind : i.op.operandKind <;> simp_all [OpCode.isBranch]

namespace Body

/-- A body whose instructions can be told from what is printed of them: the opcodes are valid, the
operands of the kinds that these take, the branches lead into the body, the types are plain, and
calls can be read from their signatures.
-/
structure Legible (b : Body) : Prop where
  valid : ∀ i ∈ b.code, i.op.isValid = true
  kinded : ∀ i ∈ b.code, i.operand.kind? = some i.op.operandKind
  inside : ∀ i ∈ b.code, i.op.isBranch = true → (b.branch? i).isSome = true
  types : ∀ i ∈ b.code, ∀ t ∈ i.type?, t.Plain
  calls : ∀ i ∈ b.code, ∀ ref ∈ i.method?, MethodRef.parse ref.signature = .ok ref.filled

/-- Instructions of two bodies have the same opcode and the same operand: branches lead to the same
position, and the return type of a call is the same once it is set.
-/
structure MatchesAt (a b : Body) (x y : Instruction) : Prop where
  op : x.op = y.op
  target : x.op.isBranch = true → a.branch? x = b.branch? y
  operand : x.op.isBranch = false → x.operand.filled = y.operand.filled

/-- Two bodies have the same locals and, position by position, the same instructions. -/
structure Matches (a b : Body) : Prop where
  locals : a.locals = b.locals
  size : a.size = b.size
  code : ∀ {index : Nat} {x y : Instruction}, a.code[index]? = some x → b.code[index]? = some y
    → a.MatchesAt b x y

variable {a b : Body} {x y : Instruction}

theorem Legible.not_target (h : a.Legible) (mem : x ∈ a.code) (other : x.op.isBranch = false)
    : x.operand.kind? ≠ some .target := by
  rw [h.kinded x mem]
  simpa [OpCode.isBranch] using other

/-- The comparison of two instructions is exact, because what is printed of one can be read back. -/
theorem sameInstruction_iff (h : a.Legible) (g : b.Legible) (first : x ∈ a.code)
    (second : y ∈ b.code)
    : sameInstruction a b x y = true ↔ a.MatchesAt b x y := by
  unfold sameInstruction
  rw [Bool.and_eq_true, beq_iff_eq]
  cases branch : x.op.isBranch with
  | true =>
      rw [if_pos rfl, beq_iff_eq]
      constructor
      · rintro ⟨op, target⟩
        exact ⟨op, fun _ => target, fun other => by simp [branch] at other⟩
      · rintro ⟨op, target, -⟩
        exact ⟨op, target branch⟩
  | false =>
      rw [if_neg Bool.false_ne_true, beq_iff_eq]
      constructor
      · rintro ⟨op, printed⟩
        have here := Listing.draft_toText a.mnemonic branch (h.kinded x first) (h.types x first)
          (h.calls x first)
        have there := Listing.draft_toText b.mnemonic (op ▸ branch) (g.kinded y second)
          (g.types y second) (g.calls y second)
        rw [printed, op, there] at here
        have same : y.filled = x.filled := by simpa using here
        refine ⟨op, fun other => by simp [branch] at other, fun _ => ?_⟩
        exact congrArg Instruction.operand same.symm
      · rintro ⟨op, -, operand⟩
        refine ⟨op, ?_⟩
        rw [← Operand.toText_filled, operand branch, Operand.toText_filled]
        exact Operand.toText_congr _ _ (g.not_target second (op ▸ branch))

theorem same_iff_matches (h : a.Legible) (g : b.Legible) : a.same b = true ↔ a.Matches b := by
  unfold same
  rw [Bool.and_eq_true, Bool.and_eq_true, beq_iff_eq, beq_iff_eq, List.all_eq_true]
  constructor
  · rintro ⟨⟨locals, size⟩, each⟩
    refine ⟨locals, size, fun {index x y} first second => ?_⟩
    have zipped : (x, y) ∈ a.code.toList.zip b.code.toList := by
      refine List.mem_of_getElem? (i := index) (List.getElem?_zip_eq_some.mpr ⟨?_, ?_⟩)
      · simpa using first
      · simpa using second
    exact (sameInstruction_iff h g (Array.mem_of_getElem? first) (Array.mem_of_getElem? second)).mp
      (each _ zipped)
  · rintro ⟨locals, size, code⟩
    refine ⟨⟨locals, size⟩, fun ⟨x, y⟩ zipped => ?_⟩
    obtain ⟨index, both⟩ := List.mem_iff_getElem?.mp zipped
    obtain ⟨first, second⟩ := List.getElem?_zip_eq_some.mp both
    rw [Array.getElem?_toList] at first second
    exact (sameInstruction_iff h g (Array.mem_of_getElem? first) (Array.mem_of_getElem? second)).mpr
      (code first second)

theorem Matches.map_code (h : a.Matches b) {f g : Instruction → Instruction}
    (each : ∀ {x y : Instruction}, x ∈ a.code → y ∈ b.code → a.MatchesAt b x y → f x = g y)
    : a.code.map f = b.code.map g := by
  have size : a.code.size = b.code.size := h.size
  refine Array.ext (by simpa using size) fun index inside other => ?_
  rw [Array.size_map] at inside other
  rw [Array.getElem_map, Array.getElem_map]
  exact each (Array.getElem_mem inside) (Array.getElem_mem other)
    (h.code (Array.getElem?_eq_getElem inside) (Array.getElem?_eq_getElem other))

/-- Instructions that match are stored alike. -/
theorem MatchesAt.stored (h : a.MatchesAt b x y)
    : x.stored MethodRef.filled a = y.stored MethodRef.filled b := by
  cases branch : x.op.isBranch with
  | true =>
      have kind : x.op.operandKind = .target := beq_iff_eq.mp branch
      simp only [Instruction.stored, Instruction.storedOperand, ← h.op, kind, h.target branch]
  | false =>
      have same : x.filled = y.filled := by
        rw [Instruction.filled, h.op, h.operand branch]
        rfl
      rw [← Instruction.stored_filled, same, Instruction.stored_filled]
      exact Instruction.stored_congr _ a b (h.op ▸ branch)

theorem Matches.stored (h : a.Matches b)
    : a.stored MethodRef.filled = b.stored MethodRef.filled := by
  rw [Body.stored, Body.stored, h.locals, h.map_code fun _ _ alike => alike.stored]

theorem Matches.filled (h : a.Matches b) (legible : a.Legible) : a.filled = b.filled := by
  have code : a.code.map Instruction.filled = b.code.map Instruction.filled := by
    refine h.map_code fun {x y} first second alike => ?_
    have operand : x.operand.filled = y.operand.filled := by
      cases branch : x.op.isBranch with
      | false => exact alike.operand branch
      | true =>
          obtain ⟨target, found⟩ := Option.isSome_iff_exists.mp (legible.inside x first branch)
          have there := alike.target branch ▸ found
          rw [operand_of_branch found, operand_of_branch there]
    rw [Instruction.filled, alike.op, operand]
    rfl
  rw [Body.filled, code, h.locals]
  rfl

theorem offsets_filled (b : Body) : b.filled.offsets = b.offsets := by
  rw [offsets, filled, Array.toList_map]
  exact offsetsFrom_map (f := Instruction.filled) (fun _ => rfl) 0 b.code.toList

theorem label_filled (b : Body) : b.filled.label = b.label := by
  unfold label
  rw [offsets_filled, resolve?_filled]

/-- The text of a body does not say whether the return type of a call is set. -/
theorem toText_filled (b : Body) : b.filled.toText = b.toText := by
  have line (i : Instruction) : i.filled.toText b.label = i.toText b.label := by
    rw [Instruction.toText, Instruction.filled, Operand.toText_filled]
    rfl
  rw [toText, label_filled, offsets_filled, filled, Array.toList_map, List.zip_map_left,
    List.flatMap_map]
  simp only [Prod.map, id, line]
  rfl

theorem Legible.faithful (h : a.Legible) : a.Faithful MethodRef.filled :=
  ⟨h.inside, fun _ _ ref _ => ref.signature_filled⟩

theorem Legible.prints (h : a.Legible) : ∀ i ∈ a.code, i.prints = true :=
  fun i mem => prints_of_kinded (h.kinded i mem) (h.inside i mem)

end Body

theorem Machine.agrees_of_store {call : MethodRef → MethodRef} {m other : Machine}
    (same : m.store call = other.store call)
    : m.Agrees other :=
  ⟨(congrArg pc same :), (congrArg steps same :), (congrArg status same :),
    (congrArg stack same :), (congrArg Machine.locals same :), (congrArg heap same :)⟩

/-- Machines on bodies that match take the same steps, because both take those of the stored body.
-/
theorem Machine.agrees_of_matches {a b : Body} (h : a.Matches b) (first : a.Legible)
    (second : b.Legible) {σ : Type} (c : Console σ) (s : σ) (limit : Int) (count : Nat)
    : (((Machine.new limit).map a).ticks c count s).1.Agrees
        (((Machine.new limit).map b).ticks c count s).1
      ∧ (((Machine.new limit).map a).ticks c count s).2
        = (((Machine.new limit).map b).ticks c count s).2 := by
  have here := ticks_store (m := (Machine.new limit).map a) c s first.faithful
    (calm_of_prints c count s first.prints)
  have there := ticks_store (m := (Machine.new limit).map b) c s second.faithful
    (calm_of_prints c count s second.prints)
  have same : ((Machine.new limit).map a).store MethodRef.filled
      = ((Machine.new limit).map b).store MethodRef.filled := by
    change (Machine.new limit).map (a.stored _) = (Machine.new limit).map (b.stored _)
    rw [h.stored]
  rw [same, there] at here
  obtain ⟨machine, console⟩ := Prod.mk.inj here
  exact ⟨agrees_of_store machine.symm, console.symm⟩

namespace Body

variable {a b : Body}

/-- The comparison of legible bodies says exactly whether they have the same locals and the same
instructions, with branches compared by where they lead and calls that have no return type taken to
return nothing. Bodies that are the same have the same text, and machines that have just mapped
them, with the same limit and consoles in the same state, come to the same state with the same
calls made to the consoles after any number of ticks.
-/
theorem same_exact (h : a.Legible) (g : b.Legible)
    : (a.same b = true ↔ a.Matches b)
      ∧ (a.same b = true → a.toText = b.toText
        ∧ ∀ (σ : Type) (c : Console σ) (s : σ) (limit : Int) (count : Nat),
          let first := ((Machine.new limit).map a).ticks c.recorded count (s, [])
          let second := ((Machine.new limit).map b).ticks c.recorded count (s, [])
          first.1.Agrees second.1 ∧ first.2 = second.2) := by
  have decides := same_iff_matches h g
  refine ⟨decides, fun same => ?_⟩
  have alike := decides.mp same
  constructor
  · rw [← toText_filled a, alike.filled h, toText_filled b]
  · intro σ c s limit count
    exact Machine.agrees_of_matches alike h g c.recorded (s, []) limit count

/-- Two bodies that differ in whether the return type of a call is set, and a third with a branch
that leads elsewhere. Their locals are of a type that is not plain.
-/
theorem same_exact_return
    : let quiet : MethodRef := { MethodRef.consoleWrite with ret := .unset }
      let body (write : MethodRef) (target : Nat) : Body :=
        { locals := [⟨[], text "a.b "⟩]
          code := #[
            ⟨.ldcI4, .int Int32.minValue⟩, ⟨.call, .method write⟩, ⟨.ldcI4One, .none⟩,
            ⟨.brtrue, .target (.position target)⟩, ⟨.newarr, .type .byte⟩, ⟨.ldlocaS, .slot 255⟩,
            ⟨.ret, .none⟩] }
      let a := body quiet 0
      let b := body .consoleWrite 0
      let other := body quiet 2
      a.Legible ∧ b.Legible ∧ other.Legible ∧ a ≠ b ∧ a.same b = true ∧ a.Matches b
        ∧ a.toText = b.toText ∧ ¬ a.Matches other
        ∧ ∀ (σ : Type) (c : Console σ) (s : σ) (limit : Int) (count : Nat),
          let first := ((Machine.new limit).map a).ticks c.recorded count (s, [])
          let second := ((Machine.new limit).map b).ticks c.recorded count (s, [])
          first.1.Agrees second.1 ∧ first.2 = second.2 := by
  intro quiet body a b other
  have owner : TypeRef.console.Plain ∧ ¬text "::" <:+: TypeRef.console.fullName
      ∧ TypeRef.console.fullName.getLast? ≠ some (Bytes.code ':') := by
    decide +kernel
  have params : ∀ p ∈ [TypeRef.char], p.Plain ∧ Bytes.code ',' ∉ p.fullName := by decide +kernel
  have unset : quiet.Plain := ⟨.inl rfl, owner, by decide, params⟩
  have void : MethodRef.consoleWrite.Plain :=
    ⟨.inr ⟨TypeRef.plain_void, by decide, by decide⟩, owner, by decide, params⟩
  have calls {body : Body} {call : MethodRef} (plain : call.Plain)
      (only : ∀ i ∈ body.code, ∀ ref ∈ i.method?, ref = call)
      : ∀ i ∈ body.code, ∀ ref ∈ i.method?, MethodRef.parse ref.signature = .ok ref.filled := by
    intro i mem ref found
    rw [only i mem ref found]
    exact plain.parse_signature
  have first : a.Legible :=
    ⟨by decide, by decide, by decide, by decide +kernel, calls unset (by decide)⟩
  have second : b.Legible :=
    ⟨by decide, by decide, by decide, by decide +kernel, calls void (by decide)⟩
  have third : other.Legible :=
    ⟨by decide, by decide, by decide, by decide +kernel, calls unset (by decide)⟩
  have same : a.same b = true := by decide +kernel
  obtain ⟨decides, alike⟩ := same_exact first second
  obtain ⟨text, runs⟩ := alike same
  have differ : ¬ a.Matches other := by
    rw [← (same_exact first third).1]
    decide +kernel
  exact ⟨first, second, third, by decide, same, decides.mp same, text, differ, runs⟩

end Body
end TapeIL
