import TapeIL.Proofs.Machine.Rules

/-! What values may refer to. In every state that a machine can be brought to, by mapping bodies,
ticking and attaching consoles, its values refer to arrays that are allocated, to elements that
those have, and to locals that are declared. The invariant holds of arbitrary bodies, because each
instruction checks what it makes a value of.
-/

namespace TapeIL

/-- What a value refers to is there: an allocated array, an element of one, or one of the `slots`
locals.
-/
def Value.Refers (heap : Heap) (slots : Nat) : Value → Prop
  | .array (some ref) => ref < heap.size
  | .element ref index => ∃ cells, heap[ref]? = some cells ∧ index < cells.length
  | .localRef slot => slot.toNat < slots
  | .array none | .int _ | .key _ => True

theorem Value.refers_of_isPlain {heap : Heap} {slots : Nat} {v : Value} (plain : v.isPlain = true)
    : v.Refers heap slots := by
  cases v with
  | int value | key char => trivial
  | _ => cases plain

------------------------------------------------------------------------------------------
-- cells
------------------------------------------------------------------------------------------

namespace Cells

/-- All cells of an array in order. -/
def bytes (c : Cells) : List UInt8 :=
  (List.range c.length).map c.get

@[simp] theorem length_bytes (c : Cells) : c.bytes.length = c.length := by
  simp [bytes]

theorem getElem?_bytes (c : Cells) (i : Nat)
    : c.bytes[i]? = if i < c.length then some (c.get i) else none := by
  by_cases h : i < c.length <;> simp [bytes, h]

theorem get_set (c : Cells) (i j : Nat) (b : UInt8)
    : (c.set i b).get j = if i = j then b else c.get j := by
  simp [get, set, Std.TreeMap.getD_insert]

/-- Storing a byte sets one element of the list of cells, by comparing elements. -/
theorem bytes_set (c : Cells) (i : Nat) (b : UInt8) : (c.set i b).bytes = c.bytes.set i b := by
  apply List.ext_getElem?
  intro j
  have same : (c.set i b).length = c.length := rfl
  rw [getElem?_bytes, List.getElem?_set, getElem?_bytes, get_set, same, length_bytes]
  by_cases h : i = j <;> simp [h]

/-- A new array is all zeros. -/
theorem bytes_new (length : Nat) : (Cells.mk length {}).bytes = List.replicate length 0 := by
  apply List.ext_getElem?
  intro i
  rw [getElem?_bytes, List.getElem?_replicate]
  simp [get]

end Cells

------------------------------------------------------------------------------------------
-- heaps
------------------------------------------------------------------------------------------

/-- Every array of the first heap is in the second one, with the same length. -/
def Heap.Extends (heap larger : Heap) : Prop :=
  ∀ (ref : Nat) (cells : Cells), heap[ref]? = some cells
    → ∃ other : Cells, larger[ref]? = some other ∧ other.length = cells.length

theorem Heap.extends_store (heap : Heap) (ref index : Nat) (b : UInt8)
    : heap.Extends (heap.store ref index b) := by
  intro other cells found
  rw [Heap.store, Array.getElem?_modify, found]
  split
  · exact ⟨_, rfl, rfl⟩
  · exact ⟨_, rfl, rfl⟩

/-- A new array takes the place of no other one. -/
theorem Heap.getElem?_push_of_some {heap : Heap} {ref : Nat} {cells : Cells}
    (found : heap[ref]? = some cells) (fresh : Cells)
    : (heap.push fresh)[ref]? = some cells := by
  have inside := (Array.getElem?_eq_some_iff.mp found).1
  rw [Array.getElem?_push_lt inside, ← Array.getElem?_eq_getElem inside, found]

theorem Heap.extends_push (heap : Heap) (cells : Cells) : heap.Extends (heap.push cells) :=
  fun _ other found => ⟨other, Heap.getElem?_push_of_some found cells, rfl⟩

/-- An array that has an element is allocated. -/
theorem Heap.getElem?_of_lt_length {heap : Heap} {ref index : Nat}
    (inside : index < (heap.arrayOf (some ref)).length)
    : heap[ref]? = some (heap.arrayOf (some ref)) := by
  cases found : heap[ref]? with
  | none => simp [Heap.arrayOf, found] at inside
  | some cells => simp [Heap.arrayOf, found]

/-- Values refer to the same things in a heap that keeps the arrays. -/
theorem Value.Refers.extend {heap larger : Heap} {slots : Nat} {v : Value}
    (h : v.Refers heap slots) (grows : heap.Extends larger)
    : v.Refers larger slots := by
  cases v with
  | array ref =>
      cases ref with
      | none => trivial
      | some ref =>
          obtain ⟨_, found, _⟩ := grows ref _ (Array.getElem?_eq_getElem h)
          exact (Array.getElem?_eq_some_iff.mp found).1
  | element ref index =>
      obtain ⟨cells, found, inside⟩ := h
      obtain ⟨other, again, same⟩ := grows ref cells found
      exact ⟨other, again, same ▸ inside⟩
  | localRef slot => exact h
  | int value | key char => trivial

------------------------------------------------------------------------------------------
-- frames
------------------------------------------------------------------------------------------

variable {σ α : Type}

/-- A frame with `slots` locals in which what values refer to is there. -/
structure Frame.Sound (slots : Nat) (f : Frame σ) : Prop where
  size : f.locals.size = slots
  stack : ∀ v ∈ f.stack, v.Refers f.heap slots
  locals : ∀ v ∈ f.locals, v.Refers f.heap slots

/-- A sound frame in which what the values in hand refer to is there, too. -/
structure Frame.Holds (slots : Nat) (hand : List Value) (f : Frame σ) : Prop where
  refers : ∀ v ∈ hand, v.Refers f.heap slots
  sound : f.Sound slots

theorem Frame.Sound.holds {slots : Nat} {f : Frame σ} (h : f.Sound slots) : f.Holds slots [] :=
  ⟨nofun, h⟩

theorem Frame.Sound.holds_one {slots : Nat} {f : Frame σ} (h : f.Sound slots) {v : Value}
    (refers : v.Refers f.heap slots)
    : f.Holds slots [v] :=
  ⟨by simpa using refers, h⟩

theorem Frame.Holds.weaken {slots : Nat} {hand fewer : List Value} {f : Frame σ}
    (h : f.Holds slots hand) (subset : fewer ⊆ hand)
    : f.Holds slots fewer :=
  ⟨fun v mem => h.refers v (subset mem), h.sound⟩

theorem Frame.Sound.extend {slots : Nat} {f : Frame σ} (h : f.Sound slots) {larger : Heap}
    (grows : f.heap.Extends larger)
    : { f with heap := larger }.Sound slots :=
  ⟨h.size, fun v mem => (h.stack v mem).extend grows, fun v mem => (h.locals v mem).extend grows⟩

namespace Exec

variable {slots : Nat}

/-- From sound frames a computation comes to sound frames, also by a fault, and what the values
refer to that it has in hand is there.
-/
abbrev Keeps (slots : Nat) (given : List Value) (x : Exec σ α) (left : α → List Value) : Prop :=
  Triple (Frame.Holds slots given) x (fun a => Frame.Holds slots (left a))
    fun _ => Frame.Sound slots

section Primitives

theorem keeps_push (v : Value)
    : Keeps slots [v] (push v : Exec σ Unit) fun _ => [v] := by
  rintro f ⟨refers, sound⟩
  refine ⟨refers, sound.size, ?_, sound.locals⟩
  intro other mem
  rcases List.mem_cons.mp mem with rfl | mem
  · exact refers other (List.mem_singleton_self other)
  · exact sound.stack other mem

theorem keeps_pop : Keeps slots [] (pop : Exec σ Value) fun v => [v] := by
  rintro ⟨stack, locals, heap, s⟩ ⟨-, sound⟩
  cases stack with
  | nil => exact sound
  | cons v rest =>
      have smaller : Frame.Sound slots ⟨rest, locals, heap, s⟩ :=
        ⟨sound.size, fun other mem => sound.stack other (List.mem_cons_of_mem v mem), sound.locals⟩
      exact smaller.holds_one (sound.stack v List.mem_cons_self)

/-- A local that has a value is declared, so that its address may be taken. -/
theorem keeps_localValue (slot : UInt8)
    : Keeps slots [] (localValue slot : Exec σ Value) fun v => [v, .localRef slot] := by
  rintro ⟨stack, locals, heap, s⟩ ⟨-, sound⟩
  rw [localValue_on]
  cases found : locals[slot.toNat]? with
  | none => exact sound
  | some v =>
      have refers := sound.locals v (Array.mem_of_getElem? found)
      have declared : slot.toNat < slots :=
        sound.size ▸ (Array.getElem?_eq_some_iff.mp found).1
      exact ⟨by simpa [Value.Refers] using ⟨refers, declared⟩, sound⟩

/-- The element that is taken is one that the array has, because the index was checked. -/
theorem keeps_element (ref : Option Nat) (index : Int32)
    : Keeps slots [.array ref] (element ref index : Exec σ (Nat × Nat))
        fun place => [.element place.1 place.2] := by
  rintro ⟨stack, locals, heap, s⟩ ⟨-, sound⟩
  cases ref with
  | none => exact sound
  | some ref =>
      rw [element_on_some]
      by_cases inside : 0 ≤ index.toInt ∧ index.toInt < (heap.arrayOf (some ref)).length
      · rw [if_pos inside]
        have bound : index.toInt.toNat < (heap.arrayOf (some ref)).length := by omega
        exact sound.holds_one ⟨_, Heap.getElem?_of_lt_length bound, bound⟩
      · rw [if_neg inside]
        exact sound

theorem keeps_consult (answer : σ → Except ConsoleError α × σ)
    : Keeps slots [] (consult answer) fun _ => [] := by
  rintro ⟨stack, locals, heap, s⟩ ⟨-, sound⟩
  rw [consult_on]
  cases (answer s).1 with
  | ok a => exact ⟨nofun, sound.size, sound.stack, sound.locals⟩
  | error e => exact ⟨sound.size, sound.stack, sound.locals⟩

/-- A stored value is one that was in hand, and takes the place of another local. -/
theorem keeps_setLocal (slot : UInt8) (v : Value)
    : Keeps slots [v] (setLocal slot v : Exec σ Unit) fun _ => [] := by
  rintro f ⟨refers, sound⟩
  refine ⟨nofun, by simpa using sound.size, sound.stack, ?_⟩
  intro other mem
  rcases Array.mem_or_eq_of_mem_setIfInBounds mem with mem | rfl
  · exact sound.locals other mem
  · exact refers other (List.mem_singleton_self other)

/-- A new array is behind all others, and its reference is the one that is pushed. -/
theorem keeps_allocate (length : Nat)
    : Keeps slots [] (allocate length : Exec σ Unit) fun _ => [] := by
  rintro f ⟨-, sound⟩
  have larger := sound.extend (f.heap.extends_push { length })
  have fresh : (Value.array (some f.heap.size)).Refers (f.heap.push { length }) slots := by
    simp [Value.Refers]
  exact (keeps_push _ _ (larger.holds_one fresh)).sound.holds

end Primitives

/-- Computations that keep frames with `slots` locals sound. -/
def keeping (slots : Nat) (c : Console σ) : Discipline c c where
  rel _ given x _ _ left := Keeps slots given x left
  permits _ := True
  declared _ := True
  stores := True
  plain _ := trivial
  pure _ _ := Triple.pure fun _ => id
  throw _ := Triple.throw fun _ => Frame.Holds.sound
  bind := Triple.bind
  weaken h more fewer := Triple.weaken h (fun _ holds => holds.weaken more)
    fun a _ holds => holds.weaken (fewer a)
  free plain h := Triple.weaken h
    (fun _ holds => holds.sound.holds_one (Value.refers_of_isPlain plain)) fun _ _ => id
  address h f holds := h trivial f holds.sound.holds
  push := keeps_push
  pop := keeps_pop
  localValue _ := keeps_localValue _
  element := keeps_element
  loadByte _ _ f holds := (keeps_push (.int _) f (holds.sound.holds_one trivial)).sound.holds
  write _ := keeps_consult _
  readKey _ := keeps_consult _
  setLocal slot v _ := keeps_setLocal slot v
  -- a store changes no length
  storeByte ref index _ _ f holds := (holds.sound.extend (f.heap.extends_store ref index _)).holds
  allocate length _ := keeps_allocate length

theorem keeping_admits (slots : Nat) (c : Console σ) (body : Body) (i : Instruction)
    : (keeping slots c).Admits body i :=
  ⟨fun _ => trivial, fun _ => trivial, fun _ => trivial, fun _ => .inl id, fun _ => .inr trivial⟩

/-- Whatever its operand, an instruction keeps frames sound. -/
theorem keeps_instruction (c : Console σ) (body : Body) (pc : Nat) (i : Instruction)
    : Keeps slots [] (instruction c body pc i) fun _ => [] :=
  (keeping_admits slots c body i).instruction pc 0

end Exec

------------------------------------------------------------------------------------------
-- machines
------------------------------------------------------------------------------------------

namespace Machine

/-- A machine with the locals that its body declares, and values that refer to what is there. -/
def Sound (m : Machine) : Prop :=
  (m.frame ()).Sound m.body.locals.length

theorem Sound.frame {m : Machine} (h : m.Sound) (s : σ)
    : (m.frame s).Sound m.body.locals.length :=
  ⟨h.size, h.stack, h.locals⟩

theorem sound_new (limit : Int) : (new limit).Sound :=
  ⟨rfl, nofun, by simp [frame, new]⟩

/-- Nothing is left of what was there before a body is mapped, and locals refer to nothing at
first.
-/
theorem sound_map (m : Machine) (body : Body) : (m.map body).Sound := by
  refine ⟨by simp [frame, map], nofun, ?_⟩
  intro v mem
  obtain ⟨type, -, rfl⟩ : ∃ type ∈ body.locals, Value.initial type = v := by
    simpa [frame, map] using mem
  unfold Value.initial
  split
  · trivial
  · split <;> trivial

theorem Sound.execute {m : Machine} (h : m.Sound) (c : Console σ) (s : σ) (i : Instruction)
    : (m.execute c s i).1.Sound := by
  have keeps : Exec.Keeps m.body.locals.length [] (Exec.instruction c m.body m.pc i) fun _ => [] :=
    Exec.keeps_instruction c m.body m.pc i
  rcases outcome : (Exec.instruction c m.body m.pc i).on (m.frame s) with ⟨fault | next, f⟩
  · rw [execute_error outcome]
    have sound := keeps.error (h.frame s).holds outcome
    exact ⟨sound.size, sound.stack, sound.locals⟩
  · rw [execute_ok outcome]
    have sound := (keeps.ok (h.frame s).holds outcome).sound
    exact ⟨sound.size, sound.stack, sound.locals⟩

theorem Sound.tick {m : Machine} (h : m.Sound) (c : Console σ) (s : σ)
    : (m.tick c s).2.1.Sound := by
  rcases m.tick_cases c s with ⟨-, same⟩ | ⟨-, -, same⟩ | ⟨-, -, -, same⟩ | ⟨i, -, -, -, -, same⟩
    | ⟨i, -, -, -, -, same⟩ <;> rw [same]
  · exact h
  · exact ⟨h.size, h.stack, h.locals⟩
  · exact ⟨h.size, h.stack, h.locals⟩
  · exact h.execute c s i
  · rw [breakOff_eq]
    have executed := h.execute c s i
    exact ⟨executed.size, executed.stack, executed.locals⟩

end Machine
end TapeIL
