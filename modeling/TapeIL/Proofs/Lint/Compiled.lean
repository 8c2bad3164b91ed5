import TapeIL.Proofs.Lint.Levels
import TapeIL.Proofs.Tape.Pairing

/-! Compiled code has no issues. Its stack is empty between windows, which is where its branches
start and lead to, so the depths along its text are the depths along its flow of control.
-/

namespace TapeIL

namespace Lint

------------------------------------------------------------------------------------------
-- depths along the text of code
------------------------------------------------------------------------------------------

/-- The depth behind instructions that run one after another, with `depth` values before them. -/
def depthBehind (depth : Nat) (code : List Instruction) : Nat :=
  code.foldl (fun depth i => depth - i.pop + i.push) depth

/-- Whether instructions that run one after another find what they take, find nothing at a `ret`,
and leave nothing.
-/
def steady : (depth : Nat) → List Instruction → Bool
  | depth, [] => depth == 0
  | depth, i :: rest =>
      i.pop ≤ depth && (i.op != .ret || depth == 0) && steady (depth - i.pop + i.push) rest

section Steady

variable {depth n : Nat} {code rest : List Instruction} {i : Instruction}

/-- Steady code may go on with steady code, by induction on the first. -/
theorem steady_append (h : steady depth code = true) (g : steady 0 rest = true)
    : steady depth (code ++ rest) = true := by
  induction code generalizing depth with
  | nil =>
      obtain rfl : depth = 0 := by simpa [steady] using h
      exact g
  | cons i code ih =>
      simp only [List.cons_append, steady, Bool.and_eq_true] at h ⊢
      exact ⟨h.1, ih h.2⟩

/-- What an instruction of steady code meets, by induction on the code. -/
theorem meets_of_steady (h : steady depth code = true) (here : code[n]? = some i)
    : i.pop ≤ depthBehind depth (code.take n)
      ∧ (i.op = .ret → depthBehind depth (code.take n) = 0) := by
  induction code generalizing depth n with
  | nil => simp at here
  | cons first rest ih =>
      simp only [steady, Bool.and_eq_true] at h
      cases n with
      | zero =>
          obtain rfl : first = i := by simpa using here
          refine ⟨by simpa [depthBehind] using h.1.1, fun ret => ?_⟩
          simpa [depthBehind, ret] using h.1.2
      | succ n => exact ih h.2 (by simpa using here)

end Steady

/-- The depth before the instruction at `index` if all before it run one after another. -/
def depthAt (b : Body) (index : Nat) : Nat :=
  depthBehind 0 (b.code.toList.take index)

section DepthAt

variable {b : Body} {index next : Nat} {i : Instruction}

theorem depthAt_succ (here : b.code[index]? = some i)
    : depthAt b (index + 1) = depthAt b index - i.pop + i.push := by
  rw [← Array.getElem?_toList] at here
  simp [depthAt, depthBehind, List.take_add_one, here]

/-- Steady code leaves nothing behind it, by induction on the code. -/
theorem depthAt_behind {code : List Instruction} (placed : b.HasAt index code)
    (steady : steady (depthAt b index) code = true)
    : depthAt b (index + code.length) = 0 := by
  induction code generalizing index with
  | nil => simpa [Lint.steady] using steady
  | cons i rest ih =>
      obtain ⟨here, placed⟩ := placed
      simp only [Lint.steady, Bool.and_eq_true, ← depthAt_succ here] at steady
      have behind := ih placed steady.2
      rwa [Nat.add_assoc, Nat.add_comm 1] at behind

/-- An edge goes to the next instruction, or along a branch. -/
theorem successor_cases (edge : next ∈ successors b index i)
    : next = index + 1 ∨ i.op.isBranch = true ∧ b.branch? i = some next := by
  unfold successors at edge
  split at edge
  case h_1 => cases edge
  case h_2 op => exact .inr ⟨by rw [op]; rfl, by simpa using edge⟩
  case h_3 op =>
    rcases List.mem_append.mp edge with target | next
    · exact .inr ⟨by rw [op]; rfl, by simpa using target⟩
    · exact .inl (List.mem_singleton.mp next)
  case h_4 => exact .inl (List.mem_singleton.mp edge)

/-- Steady code has its depths along the flow of control too, if with every branch nothing is on the
stack, neither behind it nor where it leads.
-/
theorem levels_of_steady (steady : steady 0 b.code.toList = true)
    (branches : ∀ {index next : Nat} {i : Instruction}, b.code[index]? = some i
      → i.op.isBranch = true → b.branch? i = some next
      → depthAt b (index + 1) = 0 ∧ depthAt b next = 0)
    : Levels b (depthAt b) := by
  have meets {index : Nat} {i : Instruction} (here : b.code[index]? = some i) :=
    meets_of_steady steady (Array.getElem?_toList ▸ here)
  refine ⟨rfl, fun _ here => (meets here).1, fun _ here => (meets here).2, ?_⟩
  intro index next i _ here edge
  rw [← depthAt_succ here]
  rcases successor_cases edge with rfl | ⟨branch, leads⟩
  · rfl
  · obtain ⟨behind, target⟩ := branches here branch leads
    rw [target, behind]

end DepthAt

------------------------------------------------------------------------------------------
-- single instructions
------------------------------------------------------------------------------------------

/-- Whether an instruction is of the set and touches only the first `size` locals. -/
def isDeclared (size : Nat) (i : Instruction) : Bool :=
  i.op.isValid && i.slot?.all fun slot => slot.toNat < size

theorem causes_of_declared {b : Body} {i : Instruction}
    (declared : isDeclared b.locals.length i = true)
    (inside : i.op.isBranch = true → (b.branch? i).isSome = true)
    : instructionCauses b i = [] := by
  obtain ⟨valid, slots⟩ := Bool.and_eq_true_iff.mp declared
  rw [instructionCauses, if_pos valid, List.append_eq_nil_iff]
  refine ⟨?_, ?_⟩
  · unfold targetCauses
    split
    next branch =>
      have found := inside branch
      unfold Body.branch? at found
      cases target : i.target? with
      | none => simp [target] at found
      | some place => simpa [target, Option.isSome_iff_ne_none] using found
    next => rfl
  · unfold slotCauses
    cases slot : i.slot? with
    | none => rfl
    | some slot => simpa [slot] using slots

/-- Without a cause at any instruction, and with a last one that ends the flow of control, there are
no structural issues.
-/
theorem structureIssues_eq_nil {b : Body} {last : Instruction}
    (each : ∀ i ∈ b.code, instructionCauses b i = []) (back : b.code.back? = some last)
    (ends : endsFlow last = true)
    : structureIssues b = [] := by
  simp only [structureIssues, back, ends, if_true, List.append_nil, List.flatMap_eq_nil_iff,
    List.map_eq_nil_iff]
  rintro ⟨i, index⟩ mem
  have here := List.mk_mem_zipIdx_iff_getElem?.mp mem
  exact each i (Array.mem_toList_iff.mp (List.mem_of_getElem? here))

end Lint

------------------------------------------------------------------------------------------
-- compiled code
------------------------------------------------------------------------------------------

namespace Tape

open Lint

section Windows

variable (cells : Int32) (intercept : Bool) (partner : Nat) (c : Command)

theorem steady_prologue : steady 0 (Window.prologue cells) = true :=
  rfl

theorem steady_window : steady 0 (Window.ofCommand intercept partner c) = true := by
  cases c <;> cases intercept <;> rfl

theorem declared_prologue : (Window.prologue cells).all (isDeclared 3) = true :=
  rfl

theorem declared_window : (Window.ofCommand intercept partner c).all (isDeclared 3) = true := by
  cases c <;> cases intercept <;> rfl

theorem steady_windowsOf (partner : Nat → Nat) (cs : List Command)
    : steady 0 (windowsOf intercept partner cs) = true := by
  induction cs generalizing partner with
  | nil => rfl
  | cons c rest ih =>
      rw [windowsOf_cons]
      exact steady_append (steady_window intercept (partner 0) c) (ih _)

end Windows

section LaidOut

variable {cells : Int32} {intercept : Bool} {cs : List Command} {partner : Nat → Nat} {code : Body}
  {b : Block} {i : Instruction} {k n : Nat}

theorem LaidOut.steady (h : LaidOut cells intercept cs partner code)
    : Lint.steady 0 code.code.toList = true := by
  rw [h.code]
  have windows := steady_append (steady_prologue cells) (steady_windowsOf intercept partner cs)
  exact steady_append windows rfl

/-- Nothing is on the stack where a window starts, by induction on the windows before it. -/
theorem LaidOut.depthAt_windowStart (h : LaidOut cells intercept cs partner code)
    (inside : k ≤ cs.length)
    : depthAt code (windowStart cs k) = 0 := by
  induction k with
  | zero =>
      have front : code.code.toList.take 5 = Window.prologue cells := by
        rw [h.code]
        rfl
      change depthBehind 0 (code.code.toList.take 5) = 0
      rw [front]
      rfl
  | succ k ih =>
      have here : cs[k]? = some (cs.get ⟨k, inside⟩) := by simp
      rw [windowStart_succ here, ← length_window intercept (partner k)]
      refine depthAt_behind (h.window here) ?_
      rw [ih (Nat.le_of_succ_le inside)]
      exact steady_window intercept (partner k) _

/-- Nothing is on the stack behind a branch or where it leads: these are starts of windows, and the
second instructions of loop starts.
-/
theorem LaidOut.depthAt_branch (h : LaidOut cells intercept b.commands partner code) {next : Nat}
    (here : code.code[n]? = some i) (branch : i.op.isBranch = true)
    (leads : code.branch? i = some next)
    : depthAt code (n + 1) = 0 ∧ depthAt code next = 0 := by
  obtain ⟨first, second, partners, place⟩ := h.branch here branch
  have start := command_of_token partners.start
  have finish := command_of_token partners.finish
  have opened : first + 1 ≤ b.commands.length := (List.getElem?_eq_some_iff.mp start).1
  have closed : second + 1 ≤ b.commands.length := (List.getElem?_eq_some_iff.mp finish).1
  have inside : depthAt code (windowStart b.commands first + 1) = 0 := by
    rw [depthAt_succ (h.paired partners).enter, h.depthAt_windowStart (Nat.le_of_succ_le opened)]
    rfl
  rcases place with ⟨rfl, rfl⟩ | ⟨rfl, rfl⟩
  · obtain rfl := target_of_branch? leads
    exact ⟨inside, h.depthAt_windowStart (Nat.le_of_succ_le closed)⟩
  · obtain rfl := target_of_branch? leads
    have behind := h.depthAt_windowStart closed
    rw [windowStart_succ finish] at behind
    exact ⟨behind, inside⟩

theorem LaidOut.declared (h : LaidOut cells intercept cs partner code)
    (here : code.code[n]? = some i)
    : isDeclared code.locals.length i = true := by
  rw [h.locals]
  rcases h.locate here with prologue | ⟨k, c, m, -, window, -⟩ | ⟨-, rfl⟩
  · exact List.all_eq_true.mp (declared_prologue cells) i (List.mem_of_getElem? prologue)
  · exact List.all_eq_true.mp (declared_window ..) i (List.mem_of_getElem? window)
  · rfl

theorem LaidOut.structureIssues (h : LaidOut cells intercept b.commands partner code)
    : structureIssues code = [] := by
  have back : code.code.back? = some ⟨.ret, .none⟩ := by
    rw [← Array.getLast?_toList, h.code, List.getLast?_concat]
  refine structureIssues_eq_nil (fun i mem => ?_) back rfl
  obtain ⟨n, here⟩ := Array.mem_iff_getElem?.mp mem
  exact causes_of_declared (h.declared here) (Body.branch?_isSome h.labelled.targets mem)

theorem LaidOut.lint (h : LaidOut cells intercept b.commands partner code) : code.lint = [] := by
  have levels := levels_of_steady h.steady h.depthAt_branch
  rw [Body.lint, h.structureIssues]
  simp [stackIssues, found_eq_nil levels]

end LaidOut

/-- The code of every text that is compiled has no issues, neither of structure nor of the stack. -/
theorem lint_compileSource {source : Bytes} {o : Options} {code : Body}
    (compiled : compileSource source o = .ok code)
    : code.lint = [] := by
  obtain ⟨version, cs, -, -, balance, rfl⟩ := compile_eq_ok_iff.mp compiled
  obtain ⟨b, rfl⟩ := block_of_balanced balance
  obtain ⟨partner, laid⟩ := laidOut_body (Int32.ofInt o.cells) o.intercept b.commands
  exact laid.lint

/-- Loops in a loop, behind and in front of keys that are read. -/
theorem lint_compileSource_keys
    : let source := text ",[[-] [>,] <.]"
      let o : Options := { name := text "Keys", intercept := false }
      ∃ code, compileSource source o = .ok code ∧ code.lint = [] := by
  intro source o
  have valid : o.check = .ok { major := 1 } := by cbv
  have accepted : ∃ code, compileSource source o = .ok code := by
    rw [compileSource, Program.compile, Program.checked, valid]
    exact ⟨_, rfl⟩
  obtain ⟨code, compiled⟩ := accepted
  exact ⟨code, compiled, lint_compileSource compiled⟩

end Tape
end TapeIL
