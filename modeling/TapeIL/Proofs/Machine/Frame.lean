import Mathlib
import TapeIL.Machine.Step

/-! Computations on frames as functions from frame to outcome.
Every primitive gets one equation on an explicit frame, so that straight-line code is run by
rewriting and no later proof opens the monad. Triples say what holds before a computation, after a
value and after a fault; each of their rules follows one construction of computations.
-/

namespace TapeIL.Exec

variable {σ α β : Type}

/-- The outcome of a computation and the frame it leaves. -/
def on (x : Exec σ α) (f : Frame σ) : Except Fault α × Frame σ :=
  x.run.run f

@[simp] theorem on_pure (a : α) (f : Frame σ) : (pure a : Exec σ α).on f = (.ok a, f) :=
  rfl

@[simp] theorem on_throw (e : Fault) (f : Frame σ)
    : (throw e : Exec σ α).on f = (.error e, f) :=
  rfl

@[simp] theorem on_get (f : Frame σ) : (get : Exec σ (Frame σ)).on f = (.ok f, f) :=
  rfl

@[simp] theorem on_modify (g : Frame σ → Frame σ) (f : Frame σ)
    : (modify g : Exec σ PUnit).on f = (.ok ⟨⟩, g f) :=
  rfl

theorem on_bind (x : Exec σ α) (k : α → Exec σ β) (f : Frame σ)
    : (x >>= k).on f
      = match x.on f with
        | (.ok a, next) => (k a).on next
        | (.error e, next) => (.error e, next) := by
  simp only [on, ExceptT.run, StateT.run, bind, ExceptT.bind, ExceptT.mk, StateT.bind]
  rcases x f with ⟨_ | _, next⟩ <;> rfl

/-- A computation that succeeds hands its value and frame to the next one. -/
theorem on_bind_ok {x : Exec σ α} {k : α → Exec σ β} {f next : Frame σ} {a : α}
    (h : x.on f = (.ok a, next))
    : (x >>= k).on f = (k a).on next := by
  rw [on_bind, h]

/-- A fault ends the computation it is part of. -/
theorem on_bind_error {x : Exec σ α} {k : α → Exec σ β} {f next : Frame σ} {e : Fault}
    (h : x.on f = (.error e, next))
    : (x >>= k).on f = (.error e, next) := by
  rw [on_bind, h]

/-- A computation that succeeds has succeeded in both of its parts. -/
theorem on_bind_eq_ok {x : Exec σ α} {k : α → Exec σ β} {f last : Frame σ} {b : β}
    (done : (x >>= k).on f = (.ok b, last))
    : ∃ a next, x.on f = (.ok a, next) ∧ (k a).on next = (.ok b, last) := by
  rw [on_bind] at done
  rcases hx : x.on f with ⟨e | a, next⟩ <;> rw [hx] at done
  · cases done
  · exact ⟨a, next, rfl, done⟩

section Primitives

variable (v : Value) (rest : List Value) (locals : Array Value) (heap : Heap) (s : σ)

@[simp] theorem push_on
    : (push v).on ⟨rest, locals, heap, s⟩ = (.ok (), ⟨v :: rest, locals, heap, s⟩) :=
  rfl

@[simp] theorem pop_on_nil
    : pop.on ⟨[], locals, heap, s⟩ = (.error .underflow, ⟨[], locals, heap, s⟩) :=
  rfl

@[simp] theorem pop_on_cons
    : pop.on ⟨v :: rest, locals, heap, s⟩ = (.ok v, ⟨rest, locals, heap, s⟩) :=
  rfl

@[simp] theorem popInt_on_int (value : Int32)
    : popInt.on ⟨.int value :: rest, locals, heap, s⟩ = (.ok value, ⟨rest, locals, heap, s⟩) :=
  rfl

@[simp] theorem popArray_on_array (ref : Option Nat)
    : popArray.on ⟨.array ref :: rest, locals, heap, s⟩ = (.ok ref, ⟨rest, locals, heap, s⟩) :=
  rfl

@[simp] theorem popElement_on_element (ref index : Nat)
    : popElement.on ⟨.element ref index :: rest, locals, heap, s⟩
      = (.ok (ref, index), ⟨rest, locals, heap, s⟩) :=
  rfl

@[simp] theorem element_on_none (index : Int32)
    : (element none index).on ⟨rest, locals, heap, s⟩
      = (.error (.outOfRange index 0), ⟨rest, locals, heap, s⟩) :=
  rfl

/-- An index into an array that is allocated is checked against its length. -/
theorem element_on_some (index : Int32) (ref : Nat)
    : (element (some ref) index).on ⟨rest, locals, heap, s⟩
      = (if 0 ≤ index.toInt ∧ index.toInt < (heap.arrayOf (some ref)).length then
            .ok (ref, index.toInt.toNat)
          else .error (.outOfRange index (heap.arrayOf (some ref)).length),
          ⟨rest, locals, heap, s⟩) := by
  simp only [element, on_bind, on_get]
  split <;> rfl

theorem popIndexed_on (index : Int32) (ref : Nat)
    : popIndexed.on ⟨.int index :: .array (some ref) :: rest, locals, heap, s⟩
      = (if 0 ≤ index.toInt ∧ index.toInt < (heap.arrayOf (some ref)).length then
            .ok (ref, index.toInt.toNat)
          else .error (.outOfRange index (heap.arrayOf (some ref)).length),
          ⟨rest, locals, heap, s⟩) := by
  simp only [popIndexed, on_bind, popInt_on_int, popArray_on_array, element_on_some]

@[simp] theorem localValue_on (slot : UInt8)
    : (localValue slot).on ⟨rest, locals, heap, s⟩
      = (match locals[slot.toNat]? with
        | some v => .ok v
        | none => .error (.undeclaredLocal slot), ⟨rest, locals, heap, s⟩) := by
  simp only [localValue, on_bind, on_get]
  cases locals[slot.toNat]? <;> rfl

@[simp] theorem setLocal_on (slot : UInt8)
    : (setLocal slot v).on ⟨rest, locals, heap, s⟩
      = (.ok (), ⟨rest, locals.setIfInBounds slot.toNat v, heap, s⟩) :=
  rfl

@[simp] theorem allocate_on (length : Nat)
    : (allocate length).on ⟨rest, locals, heap, s⟩
      = (.ok (), ⟨.array (some heap.size) :: rest, locals, heap.push { length }, s⟩) :=
  rfl

@[simp] theorem storeByte_on (ref index : Nat) (value : Int32)
    : (storeByte ref index value).on ⟨rest, locals, heap, s⟩
      = (.ok (), ⟨rest, locals, heap.store ref index value.toInt8.toUInt8, s⟩) :=
  rfl

@[simp] theorem loadByte_on (ref index : Nat)
    : (loadByte ref index).on ⟨rest, locals, heap, s⟩
      = (.ok (),
          ⟨.int (Int32.ofNat (heap.load ref index).toNat) :: rest, locals, heap, s⟩) :=
  rfl

@[simp] theorem consult_on (answer : σ → Except ConsoleError α × σ)
    : (consult answer).on ⟨rest, locals, heap, s⟩
      = ((answer s).1.mapError .console, ⟨rest, locals, heap, (answer s).2⟩) := by
  simp only [consult, on_bind, on_get]
  rcases answer s with ⟨_ | _, next⟩ <;> rfl

end Primitives

------------------------------------------------------------------------------------------
-- triples
------------------------------------------------------------------------------------------

/-- From every frame with `P` the computation comes to a value and a frame with `Q`, or to a fault
and a frame with `E`.
-/
def Triple (P : Frame σ → Prop) (x : Exec σ α) (Q : α → Frame σ → Prop)
    (E : Fault → Frame σ → Prop)
    : Prop :=
  ∀ f, P f →
    match x.on f with
    | (.ok a, next) => Q a next
    | (.error e, next) => E e next

variable {P : Frame σ → Prop} {Q : α → Frame σ → Prop} {E : Fault → Frame σ → Prop}
  {x : Exec σ α}

theorem Triple.ok (h : Triple P x Q E) {f next : Frame σ} {a : α} (before : P f)
    (done : x.on f = (.ok a, next))
    : Q a next := by
  simpa [done] using h f before

theorem Triple.error (h : Triple P x Q E) {f next : Frame σ} {e : Fault} (before : P f)
    (fault : x.on f = (.error e, next))
    : E e next := by
  simpa [fault] using h f before

theorem Triple.pure {a : α} (h : ∀ f, P f → Q a f) : Triple P (pure a) Q E :=
  h

theorem Triple.throw {e : Fault} (h : ∀ f, P f → E e f) : Triple P (throw e) Q E :=
  h

/-- A computation goes on with what the one before it leaves. -/
theorem Triple.bind {k : α → Exec σ β} {R : β → Frame σ → Prop} (h : Triple P x Q E)
    (next : ∀ a, Triple (Q a) (k a) R E)
    : Triple P (x >>= k) R E := by
  intro f before
  have first := h f before
  rw [on_bind]
  rcases hx : x.on f with ⟨e | a, middle⟩
  · simpa [hx] using first
  · exact next a middle (by simpa [hx] using first)

theorem Triple.weaken {P' : Frame σ → Prop} {Q' : α → Frame σ → Prop} (h : Triple P x Q E)
    (before : ∀ f, P' f → P f) (after : ∀ a f, Q a f → Q' a f)
    : Triple P' x Q' E := by
  intro f holds
  have outcome := h f (before f holds)
  rcases hx : x.on f with ⟨e | a, next⟩ <;> simp only [hx] at outcome ⊢
  · exact outcome
  · exact after a next outcome

end TapeIL.Exec
