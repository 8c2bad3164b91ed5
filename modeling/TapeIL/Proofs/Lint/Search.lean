import Mathlib
import TapeIL.Lint.Stack

/-! The search for stack depths visits every instruction it reaches, and if it finds nothing wrong
the depths agree along every edge of control flow.
-/

namespace TapeIL.Lint

namespace Search

variable {b : Body} {s t : Search} {index depth : Nat}

/-- The instruction at `index` is reached with `depth` values on the stack. -/
def Reaches (s : Search) (index depth : Nat) : Prop :=
  s.depths[index]? = some (some depth)

/-- Visits that are still to come: pending ones, and those of instructions not reached yet. -/
def remaining (s : Search) : Nat :=
  s.pending.length + s.depths.count none

/-- One search goes on from another: depths stay, and what is reached anew is pending. -/
structure Grows (s t : Search) : Prop where
  size : t.depths.size = s.depths.size
  keeps : ∀ {index depth}, s.Reaches index depth → t.Reaches index depth
  adds : ∀ {index depth}, t.Reaches index depth → s.Reaches index depth ∨ index ∈ t.pending
  pending : ∀ {index}, index ∈ s.pending → index ∈ t.pending
  remaining : t.remaining = s.remaining
  found : t.found = [] → s.found = []

theorem Grows.refl (s : Search) : Grows s s :=
  ⟨rfl, id, .inl, id, rfl, id⟩

theorem Grows.trans {u : Search} (h : Grows s t) (g : Grows t u) : Grows s u where
  size := g.size.trans h.size
  keeps reached := g.keeps (h.keeps reached)
  adds reached := by
    rcases g.adds reached with reached | pending
    · exact (h.adds reached).imp_right g.pending
    · exact .inr pending
  pending mem := g.pending (h.pending mem)
  remaining := g.remaining.trans h.remaining
  found none := h.found (g.found none)

/-- Reporting a cause leaves something found and changes nothing else. -/
theorem report_found (s : Search) (index : Nat) (cause : Issue.Cause)
    : (s.report index cause).found ≠ [] := by
  unfold report
  split
  · intro none
    simp_all
  · simp

theorem report_grows (s : Search) (index : Nat) (cause : Issue.Cause)
    : Grows s (s.report index cause) := by
  have found := report_found s index cause
  unfold report at found ⊢
  split
  · exact .refl s
  · exact ⟨rfl, id, .inl, id, rfl, nofun⟩

/-- Setting the depth of an instruction that had none leaves one less without. -/
theorem count_setIfInBounds {depths : Array (Option Nat)} (unreached : depths[index]? = some none)
    (depth : Nat)
    : (depths.setIfInBounds index (some depth)).count none + 1 = depths.count none := by
  obtain ⟨inside, empty⟩ := Array.getElem?_eq_some_iff.mp unreached
  have positive : 0 < depths.count none :=
    Array.count_pos_iff.mpr (empty ▸ Array.getElem_mem inside)
  rw [Array.setIfInBounds_def, dif_pos inside, Array.count_set inside, empty]
  simp only [beq_self_eq_true, reduceIte, Option.some_beq_none, Bool.false_eq_true]
  omega

/-- Setting the depth of an instruction that had none gives no other instruction a depth. -/
theorem reaches_set (unreached : s.depths[index]? = some none) {depth other d : Nat}
    (reached : (s.depths.setIfInBounds index (some depth))[other]? = some (some d))
    : (other = index ∧ d = depth) ∨ s.Reaches other d := by
  by_cases same : index = other
  · subst same
    have inside := (Array.getElem?_eq_some_iff.mp unreached).1
    simp only [Array.getElem?_setIfInBounds_self_of_lt inside, Option.some.injEq] at reached
    exact .inl ⟨rfl, reached.symm⟩
  · rw [Array.getElem?_setIfInBounds_ne same] at reached
    exact .inr reached

/-- Following an edge goes on with the search, by cases on what is known about its end. -/
theorem reach_grows (depth : Nat) (s : Search) (index : Nat) : Grows s (s.reach depth index) := by
  unfold reach
  split
  case h_1 => exact .refl s
  case h_2 unreached =>
    have weight := count_setIfInBounds unreached depth
    refine ⟨by simp, ?_, ?_, List.mem_cons_of_mem index, ?_, id⟩
    · intro other d reached
      have different : index ≠ other := by
        rintro rfl
        simp [Reaches, unreached] at reached
      simpa [Reaches, Array.getElem?_setIfInBounds_ne different] using reached
    · intro other d reached
      by_cases same : index = other
      · exact .inr (same ▸ List.mem_cons_self)
      · exact .inl (by simpa [Reaches, Array.getElem?_setIfInBounds_ne same] using reached)
    · simp only [remaining, List.length_cons]
      omega
  case h_3 =>
    split
    · exact .refl s
    · exact report_grows s index _

/-- An edge inside the body ends at an instruction of the edge's depth, if that is not reported. -/
theorem reaches_of_reach (inside : index < s.depths.size)
    (clean : (s.reach depth index).found = [])
    : (s.reach depth index).Reaches index depth := by
  unfold reach at clean ⊢
  split at clean
  case h_1 unknown =>
    rw [Array.getElem?_eq_none_iff] at unknown
    omega
  case h_2 unreached => simp [Reaches, inside]
  case h_3 first reached =>
    split at clean
    next same => simpa [same, Reaches] using reached
    next => exact absurd clean (report_found s index _)

/-- Following all edges goes on with the search, by induction on them. -/
theorem foldl_reach_grows (depth : Nat) (s : Search) (ends : List Nat)
    : Grows s (ends.foldl (reach depth) s) := by
  induction ends generalizing s with
  | nil => exact .refl s
  | cons first rest ih => exact (reach_grows depth s first).trans (ih _)

/-- All edges inside the body end at instructions of the edges' depth, by induction on them. -/
theorem reaches_of_foldl_reach {ends : List Nat} (mem : index ∈ ends)
    (inside : index < s.depths.size) (clean : (ends.foldl (reach depth) s).found = [])
    : (ends.foldl (reach depth) s).Reaches index depth := by
  induction ends generalizing s with
  | nil => simp at mem
  | cons first rest ih =>
      have one := reach_grows depth s first
      have more := foldl_reach_grows depth (s.reach depth first) rest
      rcases List.mem_cons.mp mem with rfl | mem
      · exact more.keeps (reaches_of_reach inside (more.found clean))
      · exact ih mem (one.size ▸ inside) clean

/-- The instruction at `index`, reached with `depth` values, finds what it takes there; a `ret`
leaves nothing, and every edge out of the instruction ends at an instruction of the right depth.
-/
def Closed (b : Body) (s : Search) (index depth : Nat) : Prop :=
  ∀ i, b.code[index]? = some i →
    i.pop ≤ depth
    ∧ (i.op = .ret → depth - i.pop + i.push = 0)
    ∧ ∀ next ∈ successors b index i, next < s.depths.size
      → s.Reaches next (depth - i.pop + i.push)

theorem Closed.grows (h : Closed b s index depth) (g : Grows s t) : Closed b t index depth := by
  intro i here
  obtain ⟨enough, empty, edges⟩ := h i here
  exact ⟨enough, empty, fun next mem inside => g.keeps (edges next mem (g.size ▸ inside))⟩

/-- Visiting an instruction goes on with the search. -/
theorem visit_grows (b : Body) (s : Search) (index depth : Nat) (i : Instruction)
    : Grows s (s.visit b index depth i) := by
  unfold visit
  split
  · exact report_grows s index _
  · refine Grows.trans ?_ (foldl_reach_grows _ _ _)
    split
    · exact report_grows s index _
    · exact .refl s

/-- A visit that reports nothing closes the instruction. -/
theorem closed_of_visit {i : Instruction} (here : b.code[index]? = some i)
    (clean : (s.visit b index depth i).found = [])
    : Closed b (s.visit b index depth i) index depth := by
  intro j there
  obtain rfl : i = j := by simpa [here] using there
  by_cases few : depth < i.pop
  · rw [visit, if_pos few] at clean
    exact absurd clean (report_found s index _)
  · by_cases leftOver : i.op = .ret ∧ depth - i.pop + i.push ≠ 0
    · simp only [visit, if_neg few, if_pos leftOver] at clean
      exact absurd ((foldl_reach_grows _ _ _).found clean) (report_found s index _)
    · simp only [visit, if_neg few, if_neg leftOver] at clean ⊢
      refine ⟨by omega, by simpa using leftOver, ?_⟩
      intro next mem inside
      rw [(foldl_reach_grows _ _ _).size] at inside
      exact reaches_of_foldl_reach mem inside clean

/-- Every reached instruction is pending or closed. -/
def Invariant (b : Body) (s : Search) : Prop :=
  ∀ index depth, s.Reaches index depth → index ∈ s.pending ∨ Closed b s index depth

/-- What one turn of the search makes of the instruction at `index`, taken from the pending ones. -/
def turn (b : Body) (s : Search) (index : Nat) : Search :=
  match b.code[index]?, s.depths[index]? with
  | some i, some (some depth) => s.visit b index depth i
  | _, _ => s

theorem explore_cons (b : Body) (fuel index : Nat) (pending : List Nat) (s : Search)
    : explore b (fuel + 1) { s with pending := index :: pending }
      = explore b fuel (turn b { s with pending } index) := by
  simp only [explore, turn]
  rcases b.code[index]? with _ | i <;> rcases s.depths[index]? with _ | _ | depth <;> rfl

/-- What taking up a pending instruction keeps is kept by the whole search, by induction on its
fuel.
-/
theorem explore_keeps {P : Search → Prop}
    (step : ∀ {depths index pending found}, P ⟨depths, index :: pending, found⟩
      → P (turn b ⟨depths, pending, found⟩ index))
    (fuel : Nat) (h : P s)
    : P (explore b fuel s) := by
  induction fuel generalizing s with
  | zero => exact h
  | succ fuel ih =>
      obtain ⟨depths, _ | ⟨index, pending⟩, found⟩ := s
      · exact h
      · rw [explore_cons b fuel index pending ⟨depths, [], found⟩]
        exact ih (step h)

theorem turn_grows (b : Body) (s : Search) (index : Nat) : Grows s (turn b s index) := by
  unfold turn
  split
  · exact visit_grows b s index _ _
  · exact .refl s

/-- A turn that reports nothing closes the instruction it takes up, if that was reached. -/
theorem closed_of_turn (reached : s.Reaches index depth) (clean : (turn b s index).found = [])
    : Closed b (turn b s index) index depth := by
  intro i here
  simp only [turn, here, show s.depths[index]? = some (some depth) from reached] at clean ⊢
  exact closed_of_visit here clean i here

/-- One turn keeps the invariant, if it reports nothing: a reached instruction is closed, and what
it reaches anew is pending.
-/
theorem Invariant.turn {pending : List Nat}
    (h : Invariant b { s with pending := index :: pending })
    (clean : (turn b { s with pending } index).found = [])
    : Invariant b (turn b { s with pending } index) := by
  have grows := turn_grows b { s with pending } index
  intro other depth reaches
  rcases grows.adds reaches with before | mem
  · rcases h other depth before with mem | closed
    · rcases List.mem_cons.mp mem with rfl | mem
      · exact .inr (closed_of_turn before clean)
      · exact .inl (grows.pending mem)
    · exact .inr (Closed.grows (s := { s with pending }) closed grows)
  · exact .inl mem

/-- The search never takes back what it found, by induction on the fuel. -/
theorem found_of_explore {fuel : Nat} (clean : (explore b fuel s).found = []) : s.found = [] := by
  induction fuel generalizing s with
  | zero => exact clean
  | succ fuel ih =>
      obtain ⟨depths, _ | ⟨index, pending⟩, found⟩ := s
      · exact clean
      · rw [explore_cons b fuel index pending ⟨depths, [], found⟩] at clean
        exact (turn_grows b ⟨depths, pending, found⟩ index).found (ih clean)

/-- A search with fuel for all remaining visits closes every instruction it reaches, unless it
finds something, by induction on the fuel.
-/
theorem explore_closes {fuel : Nat} (h : Invariant b s) (enough : s.remaining ≤ fuel)
    (clean : (explore b fuel s).found = [])
    : (explore b fuel s).depths.size = s.depths.size
      ∧ (∀ {index depth}, s.Reaches index depth → (explore b fuel s).Reaches index depth)
      ∧ ∀ {index depth}, (explore b fuel s).Reaches index depth
        → Closed b (explore b fuel s) index depth := by
  induction fuel generalizing s with
  | zero =>
      have empty : s.pending = [] := List.eq_nil_of_length_eq_zero (by
        unfold remaining at enough
        omega)
      refine ⟨rfl, id, fun {index depth} reached => ?_⟩
      exact (h index depth reached).resolve_left (by simp [empty])
  | succ fuel ih =>
      obtain ⟨depths, _ | ⟨index, pending⟩, found⟩ := s
      · refine ⟨rfl, id, fun {index depth} reached => ?_⟩
        exact (h index depth reached).resolve_left List.not_mem_nil
      · let popped : Search := ⟨depths, pending, found⟩
        rw [explore_cons b fuel index pending popped] at clean ⊢
        have grows := turn_grows b popped index
        have less : (turn b popped index).remaining ≤ fuel := by
          rw [grows.remaining]
          simp only [remaining, List.length_cons, popped] at enough ⊢
          omega
        obtain ⟨size, keeps, closes⟩ :=
          ih (Invariant.turn (s := popped) h (found_of_explore clean)) less clean
        exact ⟨size.trans grows.size, fun reached => keeps (grows.keeps reached), closes⟩

/-- The search before its first edge. -/
def blank (b : Body) : Search :=
  { depths := Array.replicate b.size none, pending := [] }

theorem start_grows (b : Body) : Grows (blank b) (start b) :=
  reach_grows 0 (blank b) 0

/-- At the start whatever is reached is pending. -/
theorem start_invariant (b : Body) : Invariant b (start b) := by
  intro index depth reached
  rcases (start_grows b).adds reached with before | mem
  · simp [Reaches, blank, Array.getElem?_replicate] at before
  · exact .inl mem

theorem start_remaining (b : Body) : (start b).remaining = b.size := by
  rw [(start_grows b).remaining]
  simp [remaining, blank]

end Search

/-- A search that finds nothing gives the first instruction an empty stack, and closes every
instruction it reaches.
-/
theorem search_closes {b : Body} (inside : 0 < b.size) (clean : (search b).found = [])
    : (search b).depths.size = b.size
      ∧ (search b).Reaches 0 0
      ∧ ∀ {index depth}, (search b).Reaches index depth
        → (search b).Closed b index depth := by
  have enough := Nat.le_of_eq (Search.start_remaining b)
  obtain ⟨size, keeps, closes⟩ := Search.explore_closes (Search.start_invariant b) enough clean
  have blank : (Search.blank b).depths.size = b.size := by simp [Search.blank]
  have first : (Search.start b).Reaches 0 0 :=
    Search.reaches_of_reach (s := Search.blank b) (by rwa [blank]) (Search.found_of_explore clean)
  exact ⟨size.trans ((Search.start_grows b).size.trans blank), keeps first, closes⟩

end TapeIL.Lint
