import TapeIL.Proofs.Machine.Run

/-! What holds of the primitive operations holds of instructions. Instructions are put together from
a few operations on the frame and the console; a property of computations that these have, and that
sequencing keeps, is proved here of every instruction, by one lemma for each operation.
-/

namespace TapeIL

variable {σ τ α β : Type}

/-- Faults over the values that an instruction meets. -/
def Fault.isPlain : Fault → Bool
  | .underflow | .undeclaredLocal _ | .unsupported _ | .branchOutside | .console _ => false
  | _ => true

/-- Numbers and keys refer to nothing. -/
def Value.isPlain : Value → Bool
  | .int _ | .key _ => true
  | _ => false

/-- The methods that the machine implements. -/
def MethodRef.builtins : List MethodRef :=
  [.objectCtor, .consoleWrite, .consoleReadKey, .keyChar]

/-- Whether a method is one that the machine implements, or has another signature than all of
them.
-/
def MethodRef.isUnambiguous (ref : MethodRef) : Bool :=
  builtins.contains ref || builtins.all fun other => ref.signature != other.signature

namespace OpCode

/-- Whether an instruction can change a local or the heap. -/
def writes : OpCode → Bool
  | .stloc0 | .stloc1 | .stloc2 | .stindI1 | .stelemI1 | .newarr => true
  | _ => false

/-- Whether an instruction needs a declared local. -/
def usesLocal : OpCode → Bool
  | .ldloc0 | .ldloc1 | .ldloc2 | .stloc0 | .stloc1 | .stloc2 | .ldlocaS => true
  | _ => false

end OpCode

/-- A property of computations on one console, or of pairs of them on two, that sequencing keeps and
primitive operations have. It may speak of the number of values on the stack, and of the values that
a computation has in hand because they come from the stack, a local or the heap.
-/
structure Discipline (c : Console σ) (d : Console τ) where
  /-- From `before` values on the stack, and the given ones in hand, the computations come to
  `after` values on the stack, and to those of `left` in hand. -/
  rel {α : Type} (before : Nat) (given : List Value) (x : Exec σ α) (y : Exec τ α) (after : Nat)
    (left : α → List Value) : Prop
  permits : Fault → Prop
  declared : UInt8 → Prop
  /-- Whether locals and arrays may change. -/
  stores : Prop
  plain {e : Fault} : e.isPlain = true → permits e
  pure {α : Type} {n : Nat} (left : α → List Value) (a : α)
    : rel n (left a) (pure a) (pure a) n left
  throw {α : Type} {n m : Nat} {given : List Value} {left : α → List Value} {e : Fault}
    : permits e → rel n given (throw e) (throw e) m left
  bind {α β : Type} {n m k : Nat} {given : List Value} {left : α → List Value}
    {last : β → List Value} {x : Exec σ α} {y : Exec τ α} {f : α → Exec σ β} {g : α → Exec τ β}
    : rel n given x y m left → (∀ a, rel m (left a) (f a) (g a) k last)
      → rel n given (x >>= f) (y >>= g) k last
  weaken {α : Type} {n m : Nat} {given more : List Value} {left fewer : α → List Value}
    {x : Exec σ α} {y : Exec τ α}
    : rel n given x y m left → given ⊆ more → (∀ a, fewer a ⊆ left a) → rel n more x y m fewer
  free {α : Type} {n m : Nat} {left : α → List Value} {x : Exec σ α} {y : Exec τ α} {v : Value}
    : v.isPlain = true → rel n [v] x y m left → rel n [] x y m left
  address {α : Type} {n m : Nat} {left : α → List Value} {x : Exec σ α} {y : Exec τ α}
    {slot : UInt8}
    : (declared slot → rel n [] x y m left) → rel n [.localRef slot] x y m left
  push {n : Nat} (v : Value) : rel n [v] (Exec.push v) (Exec.push v) (n + 1) fun _ => [v]
  pop {n : Nat} : rel (n + 1) [] Exec.pop Exec.pop n fun v => [v]
  localValue {n : Nat} {slot : UInt8}
    : declared slot
      → rel n [] (Exec.localValue slot) (Exec.localValue slot) n fun v => [v, .localRef slot]
  element {n : Nat} (ref : Option Nat) (index : Int32)
    : rel n [.array ref] (Exec.element ref index) (Exec.element ref index) n
        fun place => [.element place.1 place.2]
  loadByte {n : Nat} (ref index : Nat)
    : rel n [.element ref index] (Exec.loadByte ref index) (Exec.loadByte ref index) (n + 1)
        fun _ => []
  write {n : Nat} (unit : UInt16)
    : rel n [] (Exec.consult (c.write unit)) (Exec.consult (d.write unit)) n fun _ => []
  readKey {n : Nat} (intercept : Bool)
    : rel n [] (Exec.consult (c.readKey intercept)) (Exec.consult (d.readKey intercept)) n
        fun _ => []
  setLocal {n : Nat} (slot : UInt8) (v : Value)
    : stores → rel n [v] (Exec.setLocal slot v) (Exec.setLocal slot v) n fun _ => []
  storeByte {n : Nat} (ref index : Nat) (value : Int32)
    : stores
      → rel n [.element ref index] (Exec.storeByte ref index value)
          (Exec.storeByte ref index value) n fun _ => []
  allocate {n : Nat} (length : Nat)
    : stores → rel n [] (Exec.allocate length) (Exec.allocate length) (n + 1) fun _ => []

namespace Discipline

variable {c : Console σ} {d : Console τ} (R : Discipline c d) {n : Nat}

------------------------------------------------------------------------------------------
-- operations
------------------------------------------------------------------------------------------

/-- Values that are in hand can be dropped. -/
theorem drop {m : Nat} {given : List Value} {left : α → List Value} {x : Exec σ α}
    {y : Exec τ α} (h : R.rel n [] x y m left)
    : R.rel n given x y m left :=
  R.weaken h (List.nil_subset given) fun _ => List.Subset.refl _

theorem done {m : Nat} {given : List Value} {left : α → List Value} {x : Exec σ α}
    {y : Exec τ α} (h : R.rel n given x y m left)
    : R.rel n given x y m fun _ => [] :=
  R.weaken h (List.Subset.refl given) fun a => List.nil_subset (left a)

theorem value {given : List Value} (a : α)
    : R.rel n given (Pure.pure a) (Pure.pure a) n fun _ => [] :=
  R.drop (R.pure (fun _ => []) a)

theorem pushPlain {v : Value} (plain : v.isPlain = true)
    : R.rel n [] (Exec.push v) (Exec.push v) (n + 1) fun _ => [] :=
  R.done (R.free plain (R.push v))

theorem popInt : R.rel (n + 1) [] Exec.popInt Exec.popInt n fun _ => [] := by
  refine R.bind R.pop fun v => ?_
  cases v with
  | int value => exact R.value value
  | _ => exact R.throw (R.plain rfl)

theorem popArray
    : R.rel (n + 1) [] Exec.popArray Exec.popArray n fun ref => [.array ref] := by
  refine R.bind R.pop fun v => ?_
  cases v with
  | array ref => exact R.pure (fun ref => [.array ref]) ref
  | _ => exact R.throw (R.plain rfl)

theorem popElement
    : R.rel (n + 1) [] Exec.popElement Exec.popElement n
        fun place => [.element place.1 place.2] := by
  refine R.bind R.pop fun v => ?_
  cases v with
  | element ref index => exact R.pure (fun place => [.element place.1 place.2]) (ref, index)
  | _ => exact R.throw (R.plain rfl)

theorem popIndexed
    : R.rel (n + 2) [] Exec.popIndexed Exec.popIndexed n
        fun place => [.element place.1 place.2] :=
  R.bind R.popInt fun index => R.bind R.popArray fun ref => R.element ref index

theorem loadLocal {slot : UInt8} (declared : R.declared slot)
    : R.rel n [] (Exec.loadLocal slot) (Exec.loadLocal slot) (n + 1) fun _ => [] :=
  R.bind (R.localValue declared) fun v => R.weaken (R.push v) (by simp) (by simp)

theorem storeLocal {slot : UInt8} (declared : R.declared slot) (stores : R.stores)
    : R.rel (n + 1) [] (Exec.storeLocal slot) (Exec.storeLocal slot) n fun _ => [] :=
  R.bind (R.localValue declared) fun _ => R.drop (R.bind R.pop fun v => R.setLocal slot v stores)

/-- The address of a local is in hand once the local was looked up. -/
theorem loadLocalRef {slot : UInt8} (declared : R.declared slot)
    : R.rel n [] (Exec.loadLocalRef slot) (Exec.loadLocalRef slot) (n + 1) fun _ => [] :=
  R.bind (R.localValue declared) fun _ => R.weaken (R.push (.localRef slot)) (by simp) (by simp)

theorem dup
    : R.rel (n + 1) [] (do let v ← Exec.pop; Exec.push v; Exec.push v)
        (do let v ← Exec.pop; Exec.push v; Exec.push v) (n + 2) fun _ => [] :=
  R.bind R.pop fun v => R.bind (R.push v) fun _ => R.done (R.push v)

theorem arithmetic (operation : Int32 → Int32 → Int32)
    : R.rel (n + 2) [] (Exec.arithmetic operation) (Exec.arithmetic operation) (n + 1)
        fun _ => [] :=
  R.bind R.popInt fun _ => R.bind R.popInt fun _ => R.pushPlain rfl

theorem convert (conversion : Int32 → Int32)
    : R.rel (n + 1) [] (Exec.convert conversion) (Exec.convert conversion) (n + 1) fun _ => [] :=
  R.bind R.popInt fun _ => R.pushPlain rfl

theorem newArray (type : TypeRef) (stores : R.stores)
    : R.rel (n + 1) [] (Exec.newArray type) (Exec.newArray type) (n + 1) fun _ => [] := by
  unfold Exec.newArray
  split
  · exact R.throw (R.plain rfl)
  · refine R.bind R.popInt fun length => ?_
    split
    · exact R.throw (R.plain rfl)
    · exact R.allocate _ stores

------------------------------------------------------------------------------------------
-- calls
------------------------------------------------------------------------------------------

theorem consoleWrite
    : R.rel (n + 1) [] (Exec.consoleWrite c) (Exec.consoleWrite d) n fun _ => [] :=
  R.bind R.popInt fun _ => R.write _

theorem consoleReadKey
    : R.rel (n + 1) [] (Exec.consoleReadKey c) (Exec.consoleReadKey d) (n + 1) fun _ => [] :=
  R.bind R.popInt fun _ => R.bind (R.readKey _) fun _ => R.pushPlain rfl

theorem objectCtor
    : R.rel (n + 1) [] Exec.objectCtor Exec.objectCtor n fun _ => [] :=
  R.bind R.pop fun _ => R.throw (R.plain rfl)

theorem pushChar (v : Value) {given : List Value}
    : R.rel n given (Exec.pushChar v) (Exec.pushChar v) (n + 1) fun _ => [] := by
  cases v with
  | key char => exact R.drop (R.pushPlain rfl)
  | _ => exact R.throw (R.plain rfl)

/-- The key is in hand itself, or the address of the local that it is in. -/
theorem keyChar : R.rel (n + 1) [] Exec.keyChar Exec.keyChar (n + 1) fun _ => [] := by
  refine R.bind R.pop fun v => ?_
  cases v with
  | localRef slot =>
      refine R.address fun declared => ?_
      exact R.bind (R.localValue declared) fun receiver => R.pushChar receiver
  | _ => exact R.bind (R.value _) fun receiver => R.pushChar receiver

/-- Whether the number of values on the stack makes no difference. -/
def Level : Prop :=
  ∀ {α : Type} {n m k l : Nat} {given : List Value} {left : α → List Value} {x : Exec σ α}
    {y : Exec τ α}, R.rel n given x y m left → R.rel k given x y l left

/-- A call of a method that the machine implements does what the method's signature says, and any
other call faults.
-/
theorem call_unambiguous {ref : MethodRef} (unambiguous : ref.isUnambiguous = true)
    : R.rel (n + ref.pop) [] (Exec.call c ref) (Exec.call d ref) (n + ref.push) fun _ => [] := by
  rcases Bool.or_eq_true_iff.mp unambiguous with mem | unknown
  · simp only [MethodRef.builtins, List.contains_iff_mem, List.mem_cons, List.not_mem_nil,
      or_false] at mem
    rcases mem with rfl | rfl | rfl | rfl
    · exact R.objectCtor
    · exact R.consoleWrite
    · exact R.consoleReadKey
    · exact R.keyChar
  · simp only [MethodRef.builtins, List.all_cons, List.all_nil, Bool.and_eq_true, bne_iff_ne]
      at unknown
    simp only [Exec.call, unknown, if_false]
    exact R.throw (R.plain rfl)

/-- If the number of values makes no difference, the signature need not tell it. -/
theorem call_level (level : R.Level) (ref : MethodRef) {m : Nat}
    : R.rel n [] (Exec.call c ref) (Exec.call d ref) m fun _ => [] := by
  unfold Exec.call
  dsimp only
  split
  · exact level (n := 1) R.consoleWrite
  split
  · exact level (n := 1) R.consoleReadKey
  split
  · exact level (n := 1) R.keyChar
  split
  · exact level (n := 1) R.objectCtor
  · exact R.throw (R.plain rfl)

------------------------------------------------------------------------------------------
-- instructions
------------------------------------------------------------------------------------------

/-- What an instruction of a body needs that is not the same for all disciplines. -/
structure Admits (b : Body) (i : Instruction) : Prop where
  stores : i.op.writes = true → R.stores
  valid : i.op.isValid = false → R.permits (.unsupported i.op)
  declared : i.op.usesLocal = true → R.declared (i.slot?.getD 0)
  called : i.op = .call → R.Level ∨ i.methodOperand.isUnambiguous = true
  inside : i.op.isBranch = true → (b.branch? i).isSome = true ∨ R.permits .branchOutside

variable {R} {b : Body} {i : Instruction}

/-- An instruction that does not branch takes and leaves what its opcode declares, by cases on the
opcode.
-/
theorem Admits.effect (h : R.Admits b i) (straight : i.isStraight = true) (n : Nat)
    : R.rel (n + i.pop) [] (Exec.effect c i) (Exec.effect d i) (n + i.push) fun _ => [] := by
  obtain ⟨stores, valid, declared, called, -⟩ := h
  obtain ⟨op, operand⟩ := i
  cases op with
  | nop => exact R.value ()
  | ldarg0 => exact R.throw (R.plain rfl)
  | ldloc0 | ldloc1 | ldloc2 => exact R.loadLocal (declared rfl)
  | stloc0 | stloc1 | stloc2 => exact R.storeLocal (declared rfl) (stores rfl)
  | ldlocaS => exact R.loadLocalRef (declared rfl)
  | ldcI4Zero | ldcI4One | ldcI4 => exact R.pushPlain rfl
  | dup => exact R.dup
  | call =>
      rcases called rfl with level | unambiguous
      · exact R.call_level level _
      · exact R.call_unambiguous unambiguous
  | ret | br | brtrue => cases straight
  | ldindU1 => exact R.bind R.popElement fun _ => R.loadByte _ _
  | stindI1 =>
      exact R.bind R.popInt fun _ => R.bind R.popElement fun _ => R.storeByte _ _ _ (stores rfl)
  | add | sub => exact R.arithmetic _
  | convU1 | convU2 => exact R.convert _
  | newarr => exact R.newArray _ (stores rfl)
  | ldelema =>
      exact R.bind R.popIndexed fun place => R.done (R.push (.element place.1 place.2))
  | ldelemU1 => exact R.bind R.popIndexed fun _ => R.loadByte _ _
  | stelemI1 =>
      exact R.bind R.popInt fun _ => R.bind R.popIndexed fun _ => R.storeByte _ _ _ (stores rfl)
  | unknown excess => exact R.throw (valid rfl)

theorem Admits.jump (h : R.Admits b i) (branch : i.op.isBranch = true) {given : List Value}
    : R.rel n given (Exec.jump b i) (Exec.jump b i) n fun _ => [] := by
  unfold Exec.jump
  cases target : b.branch? i with
  | some index => exact R.value _
  | none =>
      have outside := (h.inside branch).resolve_left (by simp [target])
      exact R.throw outside

/-- Every instruction takes and leaves what its opcode declares. -/
theorem Admits.instruction (h : R.Admits b i) (pc n : Nat)
    : R.rel (n + i.pop) [] (Exec.instruction c b pc i) (Exec.instruction d b pc i) (n + i.push)
        fun _ => [] := by
  by_cases straight : i.isStraight = true
  · rw [Exec.instruction_straight c b pc straight, Exec.instruction_straight d b pc straight]
    exact R.bind (h.effect straight n) fun _ => R.value _
  · obtain ⟨op, operand⟩ := i
    cases op with
    | ret => exact R.value _
    | br => exact h.jump rfl
    | brtrue =>
        refine R.bind R.pop fun v => ?_
        cases v with
        | int value =>
            dsimp only
            split
            · exact R.value _
            · exact h.jump rfl
        | _ => exact h.jump rfl
    | _ => simp [Instruction.isStraight] at straight

end Discipline
end TapeIL
