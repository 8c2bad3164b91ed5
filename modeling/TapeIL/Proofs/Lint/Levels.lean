import TapeIL.Proofs.Lint.Search

/-! Where every instruction that control can come to has one depth, and the depths follow the flow
of control, the search finds nothing, in whatever order it visits the instructions.
-/

namespace TapeIL.Lint

/-- The instructions that control can come to from the first one. -/
inductive Reachable (b : Body) : Nat → Prop
  | first : Reachable b 0
  | next {index next : Nat} {i : Instruction} (h : Reachable b index)
    (here : b.code[index]? = some i) (edge : next ∈ successors b index i)
    : Reachable b next

/-- Depths for the instructions that control can come to. The first has none on the stack, each
finds what it takes, a `ret` finds nothing, and every edge carries on what its instruction leaves.
-/
structure Levels (b : Body) (depth : Nat → Nat) : Prop where
  first : depth 0 = 0
  enough : ∀ {index : Nat} {i : Instruction}, Reachable b index → b.code[index]? = some i
    → i.pop ≤ depth index
  empty : ∀ {index : Nat} {i : Instruction}, Reachable b index → b.code[index]? = some i
    → i.op = .ret → depth index = 0
  edge : ∀ {index next : Nat} {i : Instruction}, Reachable b index → b.code[index]? = some i
    → next ∈ successors b index i → depth next = depth index - i.pop + i.push

/-- A search has found nothing, and has given no instruction another depth than `depth` does. -/
structure Search.Agrees (b : Body) (depth : Nat → Nat) (s : Search) : Prop where
  clean : s.found = []
  reachable : ∀ {index d}, s.Reaches index d → Reachable b index
  same : ∀ {index d}, s.Reaches index d → d = depth index

namespace Search

variable {b : Body} {depth : Nat → Nat} {s : Search} {index : Nat}

/-- An edge that carries the depth of its end is nothing to report. -/
theorem Agrees.reach (h : Agrees b depth s) (reachable : Reachable b index)
    : Agrees b depth (s.reach (depth index) index) := by
  unfold Search.reach
  split
  case h_1 => exact h
  case h_2 unreached =>
    refine ⟨h.clean, ?_, ?_⟩
    · intro other d reached
      rcases reaches_set unreached reached with ⟨rfl, -⟩ | before
      · exact reachable
      · exact h.reachable before
    · intro other d reached
      rcases reaches_set unreached reached with ⟨rfl, rfl⟩ | before
      · rfl
      · exact h.same before
  case h_3 d reached =>
    rw [if_pos (h.same reached)]
    exact h

/-- Edges that all carry the depths of their ends are nothing to report, by induction on them. -/
theorem Agrees.foldl_reach {after : Nat} {ends : List Nat} (h : Agrees b depth s)
    (edges : ∀ next ∈ ends, Reachable b next ∧ depth next = after)
    : Agrees b depth (ends.foldl (Search.reach after) s) := by
  induction ends generalizing s with
  | nil => exact h
  | cons first rest ih =>
      obtain ⟨reachable, rfl⟩ := edges first List.mem_cons_self
      exact ih (h.reach reachable) fun next mem => edges next (List.mem_cons_of_mem first mem)

/-- A visit of an instruction that has its depth reports nothing. -/
theorem Agrees.visit (levels : Levels b depth) (h : Agrees b depth s) {i : Instruction}
    (reachable : Reachable b index) (here : b.code[index]? = some i)
    : Agrees b depth (s.visit b index (depth index) i) := by
  have enough : ¬depth index < i.pop := Nat.not_lt.mpr (levels.enough reachable here)
  have nothing : ¬(i.op = .ret ∧ depth index - i.pop + i.push ≠ 0) := by
    rintro ⟨ret, left⟩
    have zero := levels.empty reachable here ret
    simp [zero, Instruction.push, ret, OpCode.info] at left
  simp only [Search.visit, if_neg enough, if_neg nothing]
  refine h.foldl_reach fun next mem => ?_
  exact ⟨reachable.next here mem, levels.edge reachable here mem⟩

theorem Agrees.turn (levels : Levels b depth) (h : Agrees b depth s) (index : Nat)
    : Agrees b depth (turn b s index) := by
  unfold Search.turn
  split
  case h_1 i d here reached =>
    obtain rfl := h.same reached
    exact h.visit levels (h.reachable reached) here
  case h_2 => exact h

/-- The whole search reports nothing. -/
theorem Agrees.explore (levels : Levels b depth) (h : Agrees b depth s) (fuel : Nat)
    : Agrees b depth (explore b fuel s) :=
  explore_keeps (fun h => Agrees.turn levels ⟨h.clean, h.reachable, h.same⟩ _) fuel h

theorem agrees_start (levels : Levels b depth) : Agrees b depth (start b) := by
  have blank : Agrees b depth (blank b) := by
    refine ⟨rfl, ?_, ?_⟩ <;>
    · intro index d reached
      simp [Reaches, Search.blank, Array.getElem?_replicate] at reached
  have first := blank.reach .first
  rwa [levels.first] at first

end Search

/-- Where depths follow the flow of control, there is nothing to find. -/
theorem found_eq_nil {b : Body} {depth : Nat → Nat} (levels : Levels b depth)
    : (search b).found = [] :=
  ((Search.agrees_start levels).explore levels b.size).clean

end TapeIL.Lint
