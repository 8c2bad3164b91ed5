import TapeIL.Proofs.Lint.Levels
import TapeIL.Proofs.Lint.Soundness

/-! The search decides whether depths exist. It visits every instruction that control can come to at
most once and then has nothing left to do; the depths it found are depths for all of them, unless it
reports something, and what it reports are such instructions, each of them once.
-/

namespace TapeIL.Lint

/-- Control can go from an instruction at `index` to `next`: from a branch to its target, and from
everything but a `br` or a `ret` to what is behind it.
-/
def Flows (index : Nat) (i : Instruction) (next : Nat) : Prop :=
  (i.op.isBranch = true ∧ i.operand = .target (.position next))
  ∨ (i.op ≠ .br ∧ i.op ≠ .ret ∧ next = index + 1)

theorem isBranch_iff (op : OpCode) : op.isBranch = true ↔ op = .br ∨ op = .brtrue := by
  cases op <;> simp [OpCode.isBranch, OpCode.operandKind, OpCode.info]

/-- The position of a branch that leads into the body is its operand. -/
theorem branch?_eq_some_iff {b : Body} {i : Instruction} (inside : (b.branch? i).isSome = true)
    (next : Nat)
    : b.branch? i = some next ↔ i.operand = .target (.position next) := by
  obtain ⟨target, found⟩ := Option.isSome_iff_exists.mp inside
  rw [found, Body.operand_of_branch found]
  simp

/-- The successors of an instruction are where control can go from it, by cases on its opcode. -/
theorem mem_successors_iff {b : Body} {index next : Nat} {i : Instruction}
    (inside : i.op.isBranch = true → (b.branch? i).isSome = true)
    : next ∈ successors b index i ↔ Flows index i next := by
  unfold successors Flows
  split
  case h_1 op => simp [op, isBranch_iff]
  case h_2 op =>
    have leads := branch?_eq_some_iff (inside (by simp [op, isBranch_iff])) next
    simp [op, isBranch_iff, leads]
  case h_3 op =>
    have leads := branch?_eq_some_iff (inside (by simp [op, isBranch_iff])) next
    simp [op, isBranch_iff, leads]
  case h_4 notRet notBr notBrtrue =>
    have notBranch : ¬(i.op = .br ∨ i.op = .brtrue) := not_or.mpr ⟨notBr, notBrtrue⟩
    rw [isBranch_iff, List.mem_singleton]
    exact ⟨fun eq => .inr ⟨notBr, notRet, eq⟩,
      fun flows => flows.elim (fun branch => absurd branch.1 notBranch) fun onward => onward.2.2⟩

------------------------------------------------------------------------------------------
-- what the search leaves
------------------------------------------------------------------------------------------

namespace Search

variable {b : Body} {s : Search} {index : Nat}

/-- With fuel for all remaining visits the search comes to its end, by induction on the fuel. -/
theorem explore_pending {fuel : Nat} (enough : s.remaining ≤ fuel)
    : (explore b fuel s).pending = [] := by
  induction fuel generalizing s with
  | zero =>
      have none : s.pending.length = 0 := by
        unfold remaining at enough
        omega
      exact List.eq_nil_of_length_eq_zero none
  | succ fuel ih =>
      obtain ⟨depths, _ | ⟨index, pending⟩, found⟩ := s
      · rfl
      · let popped : Search := ⟨depths, pending, found⟩
        rw [explore_cons b fuel index pending popped]
        refine ih ?_
        rw [(turn_grows b popped index).remaining]
        simp only [remaining, List.length_cons, popped] at enough ⊢
        omega

/-- Control can come to every instruction that a search has reached or found something at, and it
has found one thing at most at each.
-/
structure Traced (b : Body) (s : Search) : Prop where
  reached : ∀ {index depth}, s.Reaches index depth → Reachable b index
  found : ∀ {index cause}, (index, cause) ∈ s.found → Reachable b index
  once : (s.found.map Prod.fst).Nodup

theorem Traced.report (h : Traced b s) (reachable : Reachable b index) (cause : Issue.Cause)
    : Traced b (s.report index cause) := by
  unfold Search.report
  split
  case isTrue => exact h
  case isFalse new =>
    refine ⟨h.reached, ?_, ?_⟩
    · intro other reason mem
      rcases List.mem_cons.mp mem with same | mem
      · cases same
        exact reachable
      · exact h.found mem
    · have fresh : index ∉ s.found.map Prod.fst := by
        intro mem
        obtain ⟨⟨other, reason⟩, found, rfl⟩ := List.mem_map.mp mem
        exact new (List.any_eq_true.mpr ⟨_, found, beq_self_eq_true other⟩)
      exact List.nodup_cons.mpr ⟨fresh, h.once⟩

theorem Traced.reach (h : Traced b s) (reachable : Reachable b index) (depth : Nat)
    : Traced b (s.reach depth index) := by
  unfold Search.reach
  split
  case h_1 => exact h
  case h_2 unreached =>
    refine ⟨fun {other d} reached => ?_, h.found, h.once⟩
    rcases reaches_set unreached reached with ⟨rfl, -⟩ | before
    · exact reachable
    · exact h.reached before
  case h_3 =>
    split
    · exact h
    · exact h.report reachable _

theorem Traced.foldl_reach {ends : List Nat} (h : Traced b s) (depth : Nat)
    (reachable : ∀ next ∈ ends, Reachable b next)
    : Traced b (ends.foldl (Search.reach depth) s) := by
  induction ends generalizing s with
  | nil => exact h
  | cons first rest ih =>
      exact ih (h.reach (reachable first List.mem_cons_self) depth)
        fun next mem => reachable next (List.mem_cons_of_mem first mem)

theorem Traced.visit {i : Instruction} (h : Traced b s) (reachable : Reachable b index)
    (here : b.code[index]? = some i) (depth : Nat)
    : Traced b (s.visit b index depth i) := by
  unfold Search.visit
  split
  · exact h.report reachable _
  · refine Traced.foldl_reach ?_ _ fun next mem => reachable.next here mem
    split
    · exact h.report reachable _
    · exact h

theorem Traced.turn (h : Traced b s) (index : Nat) : Traced b (turn b s index) := by
  unfold Search.turn
  split
  case h_1 i depth here reached => exact h.visit (h.reached reached) here depth
  case h_2 => exact h

theorem traced_start (b : Body) : Traced b (start b) := by
  have blank : Traced b (blank b) := by
    refine ⟨?_, nofun, List.nodup_nil⟩
    intro index depth reached
    simp [Reaches, Search.blank, Array.getElem?_replicate] at reached
  exact blank.reach .first 0

end Search

theorem traced_search (b : Body) : (search b).Traced b :=
  Search.explore_keeps (fun h => Search.Traced.turn ⟨h.reached, h.found, h.once⟩ _) b.size
    (Search.traced_start b)

------------------------------------------------------------------------------------------
-- the depths found
------------------------------------------------------------------------------------------

/-- The depth found for an instruction, or zero if none was. -/
def Search.depthOf (s : Search) (index : Nat) : Nat :=
  s.depths[index]?.join.getD 0

theorem Search.Reaches.depthOf {s : Search} {index depth : Nat} (h : s.Reaches index depth)
    : s.depthOf index = depth := by
  unfold Search.Reaches at h
  simp [Search.depthOf, h]

/-- A search that finds nothing reaches every instruction that control can come to, by induction on
the way there.
-/
theorem reaches_of_reachable {b : Body} (sound : structureIssues b = [])
    (clean : (search b).found = []) {index : Nat} (h : Reachable b index)
    : (search b).Reaches index ((search b).depthOf index) := by
  obtain ⟨-, last, back, ends⟩ := structure_clean sound
  obtain ⟨size, first, closes⟩ := search_closes (size_pos sound) clean
  induction h with
  | first => rwa [first.depthOf]
  | next h here edge ih =>
      obtain ⟨-, -, edges⟩ := closes ih _ here
      have inside := successors_inside here back ends edge
      have arrives := edges _ edge (size ▸ inside)
      rwa [arrives.depthOf]

/-- The depths of a search that finds nothing follow the flow of control. -/
theorem levels_search {b : Body} (sound : structureIssues b = [])
    (clean : (search b).found = [])
    : Levels b (search b).depthOf := by
  obtain ⟨-, last, back, ends⟩ := structure_clean sound
  obtain ⟨size, first, closes⟩ := search_closes (size_pos sound) clean
  have closed {index : Nat} (h : Reachable b index) := closes (reaches_of_reachable sound clean h)
  refine ⟨first.depthOf, fun h here => (closed h _ here).1, ?_, ?_⟩
  · intro index i h here ret
    obtain ⟨-, empty, -⟩ := closed h i here
    have nothing := empty ret
    have pop : i.pop = 0 := by simp [Instruction.pop, ret, OpCode.info]
    omega
  · intro index next i h here edge
    obtain ⟨-, -, edges⟩ := closed h i here
    exact (edges next edge (size ▸ successors_inside here back ends edge)).depthOf

/-- Control stays inside a body whose structure is sound. -/
theorem Reachable.lt {b : Body} (sound : structureIssues b = []) {index : Nat}
    (h : Reachable b index)
    : index < b.size := by
  obtain ⟨-, last, back, ends⟩ := structure_clean sound
  cases h with
  | first => exact size_pos sound
  | next _ here edge => exact successors_inside here back ends edge

theorem index_issueAt {b : Body} {index : Nat} (inside : index < b.size) (offsets : Array Nat)
    (cause : Issue.Cause)
    : (issueAt b offsets index cause).place.map (·.index) = some index := by
  simp [issueAt, Array.getElem?_eq_getElem inside]

/-- The stack issues are about the instructions they were found at, in the order of the finds. -/
theorem index_stackIssues {b : Body} (sound : structureIssues b = [])
    : (stackIssues b).map (fun issue => issue.place.map (·.index))
      = ((search b).found.map Prod.fst).reverse.map some := by
  rw [stackIssues, List.map_map, ← List.map_reverse, List.map_map]
  refine List.map_congr_left fun found mem => ?_
  have reachable := (traced_search b).found (List.mem_reverse.mp mem)
  exact index_issueAt (reachable.lt sound) _ found.2

/-- The stack checks are exact. Where the structure of a body is sound the search for depths comes
to its end, and it reports nothing exactly if all instructions that control can come to have depths
that follow the flow of control. Whatever it reports is about such an instruction, and no
instruction is reported twice.
-/
theorem stackIssues_exact {b : Body} (sound : structureIssues b = [])
    : (∀ {index next : Nat} {i : Instruction}, b.code[index]? = some i
        → (next ∈ successors b index i ↔ Flows index i next))
      ∧ (search b).pending = []
      ∧ (stackIssues b = [] ↔ ∃ depth, Levels b depth)
      ∧ (∀ issue ∈ stackIssues b, ∃ place, issue.place = some place ∧ Reachable b place.index)
      ∧ ((stackIssues b).map fun issue => issue.place.map (·.index)).Nodup := by
  have traced := traced_search b
  have indices := index_stackIssues sound
  refine ⟨?_, Search.explore_pending (Nat.le_of_eq (Search.start_remaining b)), ?_, ?_, ?_⟩
  · intro index next i here
    have causes := (structure_clean sound).1 i (Array.mem_of_getElem? here)
    exact mem_successors_iff (branch_inside causes)
  · constructor
    · intro none
      have clean : (search b).found = [] := by simpa [stackIssues] using none
      exact ⟨_, levels_search sound clean⟩
    · rintro ⟨depth, levels⟩
      simp [stackIssues, found_eq_nil levels]
  · intro issue mem
    have place := List.mem_map_of_mem (f := fun issue : Issue => issue.place.map (·.index)) mem
    rw [indices] at place
    obtain ⟨index, reported, same⟩ := List.mem_map.mp place
    obtain ⟨found, mem, rfl⟩ := List.mem_map.mp (List.mem_reverse.mp reported)
    obtain ⟨place, there, eq⟩ := Option.map_eq_some_iff.mp same.symm
    exact ⟨place, there, eq ▸ traced.found mem⟩
  · rw [indices]
    have once := List.nodup_reverse.mpr traced.once
    exact once.map (Option.some_injective Nat)

/-- A loop that leaves one value more on the stack each time has no depths, and is reported where
its paths meet.
-/
theorem stackIssues_exact_growing
    : let b : Body := { code := #[⟨.nop, .none⟩, ⟨.ldcI4One, .none⟩, ⟨.dup, .none⟩,
        ⟨.brtrue, .target (.position 1)⟩, ⟨.ret, .none⟩] }
      structureIssues b = []
      ∧ (search b).pending = []
      ∧ (¬∃ depth, Levels b depth)
      ∧ ∀ issue ∈ stackIssues b, ∃ place, issue.place = some place ∧ Reachable b place.index := by
  intro b
  have sound : structureIssues b = [] := by decide
  obtain ⟨-, ended, decides, places, -⟩ := stackIssues_exact sound
  refine ⟨sound, ended, ?_, places⟩
  intro levels
  have none := decides.mpr levels
  have some : stackIssues b ≠ [] := by decide
  exact some none

end TapeIL.Lint
