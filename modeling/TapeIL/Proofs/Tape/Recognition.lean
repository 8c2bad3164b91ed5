import TapeIL.Proofs.Tape.Brackets
import TapeIL.Tape.Decompile

/-! The code that decompiling recognises. No window begins with another one, so a scan that takes
the first window it finds, and never goes back, accepts exactly the concatenations of windows, stops
where the longest of them ends, and does not depend on the order in which windows are tried.
-/

namespace TapeIL

/-- The opcodes of a body. -/
def Body.opcodes (b : Body) : List OpCode :=
  b.code.toList.map Instruction.op

namespace Tape

------------------------------------------------------------------------------------------
-- windows
------------------------------------------------------------------------------------------

/-- The opcodes of a command's window. Only the window of an input command depends on the flag. -/
def opcodesOf (w : Command × Bool) : List OpCode :=
  Window.opcodes w.2 w.1

/-- The same window: the same command, and the same flag if it reads input. -/
def SameWindow (w v : Command × Bool) : Prop :=
  w.1 = v.1 ∧ (w.1 = .input → w.2 = v.2)

instance (w v : Command × Bool) : Decidable (SameWindow w v) :=
  inferInstanceAs (Decidable (_ ∧ _))

/-- Windows one behind another. -/
def spelled (ws : List (Command × Bool)) : List OpCode :=
  ws.flatMap opcodesOf

/-- Opcodes at which a scan for windows stops. -/
def NoWindow (ops : List OpCode) : Prop :=
  ∀ w, ¬opcodesOf w <+: ops

section Windows

variable {w v : Command × Bool} {ops rest : List OpCode}

theorem mem_all (w : Command × Bool) : w ∈ Window.all := by
  obtain ⟨c, flag⟩ := w
  cases c <;> cases flag <;> decide

theorem length_opcodesOf (w : Command × Bool) : (opcodesOf w).length = Window.length w.1 := by
  obtain ⟨c, flag⟩ := w
  cases c <;> rfl

/-- A window is not empty, and does not begin with a `ret`. -/
theorem opcodesOf_cons (w : Command × Bool)
    : ∃ op inside, opcodesOf w = op :: inside ∧ op ≠ .ret := by
  obtain ⟨c, flag⟩ := w
  cases c <;> exact ⟨_, _, rfl, by decide⟩

theorem SameWindow.opcodesOf (h : SameWindow w v) : opcodesOf w = opcodesOf v := by
  obtain ⟨c, flag⟩ := w
  obtain ⟨d, other⟩ := v
  obtain ⟨same, flags⟩ := h
  cases same
  cases c with
  | input =>
      have same : flag = other := flags rfl
      rw [same]
  | _ => rfl

/-- No window begins with another one. -/
theorem sameWindow_of_isPrefix (h : opcodesOf w <+: opcodesOf v) : SameWindow w v := by
  have free : ∀ w ∈ Window.all, ∀ v ∈ Window.all, opcodesOf w <+: opcodesOf v → SameWindow w v := by
    decide
  exact free w (mem_all w) v (mem_all v) h

/-- There are nine of them. -/
example : (Window.all.map opcodesOf).dedup.length = 9 := by
  decide

/-- Code begins with one window at most. -/
theorem sameWindow_of_prefixes (h : opcodesOf w <+: ops) (g : opcodesOf v <+: ops)
    : SameWindow w v := by
  rcases List.prefix_or_prefix_of_prefix h g with first | second
  · exact sameWindow_of_isPrefix first
  · obtain ⟨same, flags⟩ := sameWindow_of_isPrefix second
    exact ⟨same.symm, fun input => (flags (same ▸ input)).symm⟩

theorem opcodesOf_eq_of_isPrefix (h : opcodesOf w <+: opcodesOf v ++ rest)
    : opcodesOf w = opcodesOf v :=
  (sameWindow_of_prefixes h (List.prefix_append (opcodesOf v) rest)).opcodesOf

theorem noWindow_nil : NoWindow [] := by
  intro w begins
  obtain ⟨op, inside, eq, -⟩ := opcodesOf_cons w
  rw [eq] at begins
  exact List.cons_ne_nil op inside (List.prefix_nil.mp begins)

theorem noWindow_ret (more : List OpCode) : NoWindow (.ret :: more) := by
  intro w begins
  obtain ⟨op, inside, eq, notRet⟩ := opcodesOf_cons w
  rw [eq] at begins
  exact notRet (List.cons_prefix_cons.mp begins).1

/-- Opcodes are windows up to a place where a scan stops, by induction on their number. -/
theorem exists_noWindow (ops : List OpCode)
    : ∃ ws rest, ops = spelled ws ++ rest ∧ NoWindow rest := by
  induction length : ops.length using Nat.strong_induction_on generalizing ops with
  | _ n ih =>
      by_cases stuck : NoWindow ops
      · exact ⟨[], ops, rfl, stuck⟩
      · obtain ⟨w, more, rfl⟩ : ∃ w, opcodesOf w <+: ops := not_forall_not.mp stuck
        obtain ⟨op, inside, eq, -⟩ := opcodesOf_cons w
        have shorter : more.length < n := by
          rw [← length, eq, List.length_append, List.length_cons]
          omega
        obtain ⟨ws, rest, same, stuck⟩ := ih more.length shorter more rfl
        refine ⟨w :: ws, rest, ?_, stuck⟩
        rw [same, spelled, spelled, List.flatMap_cons, List.append_assoc]

/-- Windows in front of a place where a scan stops are the first of those that lead there, by
induction on them.
-/
theorem spelled_isPrefix {ws vs : List (Command × Bool)} (stuck : NoWindow rest)
    (h : spelled vs <+: spelled ws ++ rest)
    : spelled vs <+: spelled ws := by
  induction vs generalizing ws with
  | nil => exact List.nil_prefix
  | cons v vs ih =>
      rw [spelled, List.flatMap_cons] at h ⊢
      have first : opcodesOf v <+: spelled ws ++ rest := (List.prefix_append _ _).trans h
      cases ws with
      | nil => exact absurd first (stuck v)
      | cons w ws =>
          rw [spelled, List.flatMap_cons, List.append_assoc] at first h
          have same := opcodesOf_eq_of_isPrefix first
          rw [same] at h ⊢
          rw [spelled, List.flatMap_cons]
          exact (List.prefix_append_right_inj _).mpr (ih ((List.prefix_append_right_inj _).mp h))

end Windows

------------------------------------------------------------------------------------------
-- the scan
------------------------------------------------------------------------------------------

/-- The scan for windows, which are tried in the order of a table. -/
def windowsBy (table : List (Command × Bool)) (index skip : Nat)
    : List Instruction → Except DecompileError (List (Command × Bool))
  | [] => .ok []
  | i :: rest =>
      match skip with
      | skip + 1 => windowsBy table (index + 1) skip rest
      | 0 =>
          if i.op = .ret then .ok []
          else
            match table.find? fun w => beginsWith (opcodesOf w) (i :: rest) with
            | none => .error (.unexpected index i.op)
            | some w => (windowsBy table (index + 1) (Window.length w.1 - 1) rest).map (w :: ·)

theorem windowsBy_all (index skip : Nat) (code : List Instruction)
    : windowsBy Window.all index skip code = windows index skip code := by
  induction code generalizing index skip with
  | nil => rfl
  | cons i rest ih =>
      cases skip with
      | succ skip => exact ih (index + 1) skip
      | zero =>
          simp only [windowsBy, windows, ih]
          rfl

/-- A table in which every window is, in any order and any number of times. -/
def Covers (table : List (Command × Bool)) : Prop :=
  ∀ w, ∃ v ∈ table, SameWindow v w

theorem covers_all : Covers Window.all :=
  fun w => ⟨w, mem_all w, rfl, fun _ => rfl⟩

theorem beginsWith_iff (ops : List OpCode) (code : List Instruction)
    : beginsWith ops code = true ↔ ops <+: code.map Instruction.op := by
  induction ops generalizing code with
  | nil => simp [beginsWith]
  | cons op ops ih =>
      cases code with
      | nil => simp [beginsWith]
      | cons i rest => simp [beginsWith, ih, List.cons_prefix_cons]

section Scan

variable {table : List (Command × Bool)} {code : List Instruction} {w : Command × Bool}

/-- The window that code begins with is found in every table that has it. -/
theorem find?_window (covers : Covers table) (begins : opcodesOf w <+: code.map Instruction.op)
    : ∃ found, table.find? (fun w => beginsWith (opcodesOf w) code) = some found
      ∧ SameWindow found w := by
  obtain ⟨v, mem, alike⟩ := covers w
  cases search : table.find? (fun w => beginsWith (opcodesOf w) code) with
  | none =>
      have absent := List.find?_eq_none.mp search v mem
      rw [beginsWith_iff, alike.opcodesOf] at absent
      exact absurd begins absent
  | some found =>
      have holds : beginsWith (opcodesOf found) code = true :=
        List.find?_some (p := fun w => beginsWith (opcodesOf w) code) search
      exact ⟨found, rfl, sameWindow_of_prefixes ((beginsWith_iff _ _).mp holds) begins⟩

theorem find?_noWindow (stuck : NoWindow (code.map Instruction.op))
    : table.find? (fun w => beginsWith (opcodesOf w) code) = none := by
  rw [List.find?_eq_none]
  intro w _ begins
  exact stuck w ((beginsWith_iff _ _).mp begins)

/-- The scan passes over what belongs to a window already recognised, by induction on the code. -/
theorem windowsBy_skip (index skip : Nat) (code : List Instruction)
    : windowsBy table index skip code = windowsBy table (index + skip) 0 (code.drop skip) := by
  induction code generalizing index skip with
  | nil => rw [List.drop_nil]; rfl
  | cons i rest ih =>
      cases skip with
      | zero => rfl
      | succ skip =>
          rw [windowsBy, ih, List.drop_succ_cons]
          congr 1
          omega

/-- The scan goes on behind a window that the code begins with. -/
theorem windowsBy_window (covers : Covers table) (begins : opcodesOf w <+: code.map Instruction.op)
    (index : Nat)
    : ∃ found, SameWindow found w
      ∧ windowsBy table index 0 code
        = (windowsBy table (index + (opcodesOf w).length) 0
            (code.drop (opcodesOf w).length)).map (found :: ·) := by
  obtain ⟨found, search, alike⟩ := find?_window covers begins
  obtain ⟨op, inside, eq, notRet⟩ := opcodesOf_cons w
  have length : Window.length found.1 = inside.length + 1 := by
    rw [← length_opcodesOf, alike.opcodesOf, eq, List.length_cons]
  refine ⟨found, alike, ?_⟩
  cases code with
  | nil =>
      rw [eq] at begins
      exact absurd (List.prefix_nil.mp begins) (List.cons_ne_nil op inside)
  | cons i rest =>
      have notRet : i.op ≠ .ret := by
        rw [eq] at begins
        exact (List.cons_prefix_cons.mp begins).1 ▸ notRet
      simp only [windowsBy, if_neg notRet, search, length, Nat.add_sub_cancel]
      rw [windowsBy_skip (index + 1), eq, List.length_cons, List.drop_succ_cons,
        Nat.add_assoc index 1, Nat.add_comm 1]

/-- What a scan comes to that has recognised windows up to `index` and stops there. -/
def verdict (index : Nat) (ws : List (Command × Bool)) (rest : List OpCode)
    : Except DecompileError (List (Command × Bool)) :=
  match rest.head? with
  | none => .ok ws
  | some op => if op = .ret then .ok ws else .error (.unexpected index op)

theorem verdict_cons (index : Nat) (w : Command × Bool) (ws : List (Command × Bool))
    (rest : List OpCode)
    : (verdict index ws rest).map (w :: ·) = verdict index (w :: ws) rest := by
  unfold verdict
  cases rest.head? with
  | none => rfl
  | some op =>
      by_cases ret : op = .ret
      · simp [ret, Except.map]
      · simp [ret, Except.map]

/-- The scan recognises windows one behind another up to the place where it has to stop, by
induction on the windows.
-/
theorem windowsBy_spelled (covers : Covers table) {ws : List (Command × Bool)}
    {rest : List OpCode} (eq : code.map Instruction.op = spelled ws ++ rest) (stuck : NoWindow rest)
    (index : Nat)
    : ∃ found, List.Forall₂ SameWindow found ws
      ∧ windowsBy table index 0 code = verdict (index + (spelled ws).length) found rest := by
  induction ws generalizing code index with
  | nil =>
      refine ⟨[], .nil, ?_⟩
      cases code with
      | nil =>
          obtain rfl : rest = [] := by simpa [spelled] using eq.symm
          rfl
      | cons i more =>
          obtain rfl : rest = (i :: more).map Instruction.op := by simpa [spelled] using eq.symm
          rw [windowsBy, find?_noWindow stuck]
          rfl
  | cons w ws ih =>
      rw [spelled, List.flatMap_cons, List.append_assoc] at eq
      have begins : opcodesOf w <+: code.map Instruction.op := ⟨_, eq.symm⟩
      obtain ⟨first, alike, scanned⟩ := windowsBy_window covers begins index
      have behind : (code.drop (opcodesOf w).length).map Instruction.op = spelled ws ++ rest := by
        rw [List.map_drop, eq, List.drop_left]
        rfl
      obtain ⟨found, all, ended⟩ := ih behind (index + (opcodesOf w).length)
      refine ⟨first :: found, .cons alike all, ?_⟩
      rw [scanned, ended, verdict_cons, spelled, spelled, List.flatMap_cons, List.length_append,
        Nat.add_assoc]

end Scan

------------------------------------------------------------------------------------------
-- what is recovered
------------------------------------------------------------------------------------------

/-- The flag of the last window that reads input, and false if there is none. -/
def inputFlag (ws : List (Command × Bool)) : Bool :=
  ((ws.filter fun w => w.1 = .input).getLast?.map Prod.snd).getD false

theorem lastIntercept_eq (ws : List (Command × Bool)) : lastIntercept ws = inputFlag ws := by
  induction ws using List.reverseRecOn with
  | nil => rfl
  | append_singleton ws w ih =>
      unfold lastIntercept inputFlag at ih ⊢
      rw [List.foldl_append, List.filter_append, ih]
      by_cases input : w.1 = .input
      · simp [input]
      · simp [input]

theorem lastIntercept_of_sameWindow {ws vs : List (Command × Bool)}
    (h : List.Forall₂ SameWindow ws vs)
    : lastIntercept ws = lastIntercept vs := by
  unfold lastIntercept
  -- the flag found before the windows is the same on both sides, whatever it is
  generalize false = last
  induction h generalizing last with
  | nil => rfl
  | @cons w v ws vs alike _ ih =>
      obtain ⟨same, flags⟩ := alike
      rw [List.foldl_cons, List.foldl_cons, ih]
      congr 1
      by_cases input : w.1 = .input
      · simp [← same, input, flags input]
      · simp [← same, input]

theorem commands_of_sameWindow {ws vs : List (Command × Bool)} (h : List.Forall₂ SameWindow ws vs)
    : ws.map Prod.fst = vs.map Prod.fst := by
  induction h with
  | nil => rfl
  | cons alike _ ih => rw [List.map_cons, List.map_cons, alike.1, ih]

/-- What windows say about the program they were compiled from. -/
def recovered (cells : Int) (ws : List (Command × Bool)) : Decompilation :=
  { program := { tokens := (ws.map Prod.fst).map .ofCommand }
    cells
    intercept := inputFlag ws }

theorem recovered_eq (cells : Int) (ws : List (Command × Bool))
    : recovered cells ws
      = { program := { tokens := ws.map fun w => .ofCommand w.1 }
          cells
          intercept := lastIntercept ws } := by
  rw [recovered, ← lastIntercept_eq, List.map_map]
  rfl

theorem recovered_of_sameWindow {ws vs : List (Command × Bool)} (h : List.Forall₂ SameWindow ws vs)
    (cells : Int)
    : recovered cells ws = recovered cells vs := by
  rw [recovered, recovered, commands_of_sameWindow h, ← lastIntercept_eq, ← lastIntercept_eq,
    lastIntercept_of_sameWindow h]

/-- Decompiling with windows that are tried in the order of a table. -/
def decompileBy (table : List (Command × Bool)) (b : Body)
    : Except DecompileError Decompilation := do
  let code := b.code.toList
  match code with
  | first :: second :: _ =>
      let prologue := (Window.prologue 0).map Instruction.op
      if !beginsWith prologue code then throw .noPrologue
      let type := second.typeOperand
      if type ≠ .byte then throw (.elementType type)
      let ws ← windowsBy table prologue.length 0 (code.drop prologue.length)
      return {
        program := { tokens := ws.map fun (c, _) => .ofCommand c }
        cells := (first.int?.getD 0).toInt
        intercept := lastIntercept ws }
  | _ => throw .noPrologue

theorem decompileBy_all (b : Body) : decompileBy Window.all b = b.decompile := by
  rcases code : b.code.toList with _ | ⟨first, _ | ⟨second, rest⟩⟩
  all_goals simp only [decompileBy, Body.decompile, code, windowsBy_all]

end Tape

namespace Body

open Tape

/-- The opcodes of the prologue. -/
def opening : List OpCode :=
  [.ldcI4, .newarr, .stloc0, .ldcI4Zero, .stloc1]

/-- The body begins with the prologue, and what that allocates are bytes. -/
def Opens (b : Body) : Prop :=
  opening <+: b.opcodes ∧ ∃ i, b.code[1]? = some i ∧ i.operand = .type .byte

/-- The body is the prologue, the given windows, and then nothing, or a `ret` and anything. -/
def Spells (b : Body) (ws : List (Command × Bool)) : Prop :=
  ∃ rest, b.opcodes = opening ++ spelled ws ++ rest ∧ (rest = [] ∨ ∃ more, rest = .ret :: more)

/-- The first `n` instructions of the body are the prologue and whole windows. -/
def Whole (b : Body) (n : Nat) : Prop :=
  n ≤ b.size ∧ ∃ ws, b.opcodes.take n = opening ++ spelled ws

/-- The number that is the operand of the first instruction, or zero if it has none. -/
def literal (b : Body) : Int :=
  match (b.code[0]? : Option Instruction) with
  | some ⟨_, .int value⟩ => value.toInt
  | _ => 0

theorem typeOperand_eq_byte_iff (i : Instruction)
    : i.typeOperand = .byte ↔ i.operand = .type .byte := by
  have unset : TypeRef.unset ≠ .byte := by decide
  obtain ⟨op, operand⟩ := i
  cases operand <;> simp [Instruction.typeOperand, Instruction.type?, unset]

theorem literal_eq {b : Body} {i : Instruction} (here : b.code[0]? = some i)
    (ldc : i.op = .ldcI4)
    : b.literal = (i.int?.getD 0).toInt := by
  obtain ⟨op, operand⟩ := i
  cases ldc
  rw [literal, here]
  cases operand <;> rfl

/-- Decompiling two instructions or more: the prologue is checked first, then its type, and then the
windows are scanned.
-/
theorem decompileBy_eq {b : Body} {first second : Instruction} {rest : List Instruction}
    (code : b.code.toList = first :: second :: rest) (table : List (Command × Bool))
    : decompileBy table b
      = if beginsWith opening b.code.toList then
          if second.typeOperand = .byte then
            (windowsBy table opening.length 0 (b.code.toList.drop opening.length)).map
              (recovered (first.int?.getD 0).toInt)
          else .error (.elementType second.typeOperand)
        else .error .noPrologue := by
  have opcodes : (Window.prologue 0).map Instruction.op = opening := rfl
  simp only [decompileBy, code, opcodes]
  by_cases begins : beginsWith opening (first :: second :: rest) = true
  · by_cases byte : second.typeOperand = .byte
    · simp only [begins, byte, Bool.not_true, Bool.false_eq_true, if_false, if_true, ne_eq,
        not_true_eq_false]
      cases windowsBy table opening.length 0 ((first :: second :: rest).drop opening.length) with
      | error e => rfl
      | ok ws => exact congrArg Except.ok (recovered_eq _ ws).symm
    · simp only [begins, byte, Bool.not_true, Bool.false_eq_true, if_false, if_true, ne_eq,
        not_false_eq_true]
      rfl
  · simp only [begins, Bool.not_false, if_true]
    rfl

/-- Behind the prologue decompiling is a scan for windows. -/
theorem decompileBy_of_opens {b : Body} (opens : b.Opens) (table : List (Command × Bool))
    : decompileBy table b
      = (windowsBy table opening.length 0 (b.code.toList.drop opening.length)).map
          (recovered b.literal) := by
  obtain ⟨begins, i, here, byte⟩ := opens
  rcases code : b.code.toList with _ | ⟨first, _ | ⟨second, rest⟩⟩
  · simp [opening, opcodes, code] at begins
  · simp [opening, opcodes, code, List.cons_prefix_cons] at begins
  · obtain rfl : second = i := by simpa [← Array.getElem?_toList, code] using here
    have ldc : first.op = .ldcI4 := by
      rw [opcodes, code, opening] at begins
      exact (List.cons_prefix_cons.mp begins).1.symm
    have zero : b.code[0]? = some first := by simp [← Array.getElem?_toList, code]
    rw [decompileBy_eq code, if_pos ((beginsWith_iff _ _).mpr begins),
      if_pos ((typeOperand_eq_byte_iff second).mpr byte), literal_eq zero ldc, code]

/-- Without the prologue decompiling fails, whatever the windows are. -/
theorem decompileBy_of_not_opens {b : Body} (closed : ¬b.Opens)
    : ∃ e, (e = .noPrologue ∨ ∃ type, e = .elementType type)
      ∧ ∀ table, decompileBy table b = .error e := by
  rcases code : b.code.toList with _ | ⟨first, _ | ⟨second, rest⟩⟩
  · exact ⟨_, .inl rfl, fun table => by simp only [decompileBy, code]; rfl⟩
  · exact ⟨_, .inl rfl, fun table => by simp only [decompileBy, code]; rfl⟩
  · by_cases begins : beginsWith opening b.code.toList = true
    · have type : second.typeOperand ≠ .byte := by
        intro byte
        refine closed ⟨(beginsWith_iff _ _).mp begins, second, ?_, ?_⟩
        · simp [← Array.getElem?_toList, code]
        · exact (typeOperand_eq_byte_iff second).mp byte
      refine ⟨_, .inr ⟨second.typeOperand, rfl⟩, fun table => ?_⟩
      rw [decompileBy_eq code, if_pos begins, if_neg type]
    · refine ⟨_, .inl rfl, fun table => ?_⟩
      rw [decompileBy_eq code, if_neg begins]

/-- Where a body with a prologue stops being windows. -/
theorem exists_spelled {b : Body} (opens : b.Opens)
    : ∃ ws rest, b.opcodes = opening ++ spelled ws ++ rest ∧ NoWindow rest := by
  obtain ⟨⟨behind, eq⟩, -⟩ := opens
  obtain ⟨ws, rest, rfl, stuck⟩ := exists_noWindow behind
  exact ⟨ws, rest, by rw [← eq, List.append_assoc], stuck⟩

/-- Decompiling comes to what the place says where the scan stops. -/
theorem decompileBy_spelled {b : Body} (opens : b.Opens) {table : List (Command × Bool)}
    (covers : Covers table) {ws : List (Command × Bool)} {rest : List OpCode}
    (eq : b.opcodes = opening ++ spelled ws ++ rest) (stuck : NoWindow rest)
    : decompileBy table b
      = (verdict (opening ++ spelled ws).length ws rest).map (recovered b.literal) := by
  have behind : (b.code.toList.drop opening.length).map Instruction.op = spelled ws ++ rest := by
    rw [List.map_drop, ← opcodes, eq, List.append_assoc, List.drop_left]
  obtain ⟨found, alike, scanned⟩ := windowsBy_spelled covers behind stuck opening.length
  rw [decompileBy_of_opens opens, scanned, ← List.length_append]
  unfold verdict
  cases rest.head? with
  | none => exact congrArg Except.ok (recovered_of_sameWindow alike _)
  | some op =>
      by_cases ret : op = .ret
      · simp only [ret, if_true]
        exact congrArg Except.ok (recovered_of_sameWindow alike _)
      · simp only [ret, if_false, Except.map]

/-- The order of the windows in a table, and how often each is in it, make no difference. -/
theorem decompileBy_covers (b : Body) {table other : List (Command × Bool)}
    (covers : Covers table) (covered : Covers other)
    : decompileBy table b = decompileBy other b := by
  by_cases opens : b.Opens
  · obtain ⟨ws, rest, eq, stuck⟩ := exists_spelled opens
    rw [decompileBy_spelled opens covers eq stuck, decompileBy_spelled opens covered eq stuck]
  · obtain ⟨e, -, error⟩ := decompileBy_of_not_opens opens
    rw [error table, error other]

/-- A body that is windows up to its end or a `ret` is decompiled to them. -/
theorem decompileBy_of_spells {b : Body} (opens : b.Opens) {table : List (Command × Bool)}
    (covers : Covers table) {ws : List (Command × Bool)} (spells : b.Spells ws)
    : decompileBy table b = .ok (recovered b.literal ws) := by
  obtain ⟨rest, eq, rfl | ⟨more, rfl⟩⟩ := spells
  · rw [decompileBy_spelled opens covers eq noWindow_nil]
    rfl
  · rw [decompileBy_spelled opens covers eq (noWindow_ret more)]
    rfl

/-- A body that is windows up to some other opcode is not, and the scan stops at that opcode. -/
theorem decompileBy_of_not_spells {b : Body} (opens : b.Opens) {table : List (Command × Bool)}
    (covers : Covers table) (spells : ¬∃ ws, b.Spells ws)
    : ∃ ws op more, b.opcodes = opening ++ spelled ws ++ op :: more ∧ NoWindow (op :: more)
      ∧ decompileBy table b = .error (.unexpected (opening ++ spelled ws).length op) := by
  obtain ⟨ws, rest, eq, stuck⟩ := exists_spelled opens
  have decompiled := decompileBy_spelled opens covers eq stuck
  cases rest with
  | nil => exact absurd ⟨ws, [], eq, .inl rfl⟩ spells
  | cons op more =>
      have notRet : op ≠ .ret := by
        rintro rfl
        exact spells ⟨ws, _, eq, .inr ⟨more, rfl⟩⟩
      refine ⟨ws, op, more, eq, stuck, ?_⟩
      rw [decompiled, verdict, List.head?_cons]
      simp only [if_neg notRet, Except.map]

theorem length_opcodes (b : Body) : b.opcodes.length = b.size := by
  simp [opcodes, size]

/-- The windows in front of the place where a scan stops are the longest beginning of that kind. -/
theorem isGreatest_whole {b : Body} {ws : List (Command × Bool)} {rest : List OpCode}
    (eq : b.opcodes = opening ++ spelled ws ++ rest) (stuck : NoWindow rest)
    : IsGreatest {n | b.Whole n} (opening ++ spelled ws).length := by
  have size := congrArg List.length eq
  rw [length_opcodes, List.length_append] at size
  constructor
  · exact ⟨by omega, ws, by rw [eq, List.take_left]⟩
  · rintro n ⟨inside, vs, front⟩
    have begins : spelled vs <+: spelled ws ++ rest := by
      rw [← List.prefix_append_right_inj opening, ← front, ← List.append_assoc, ← eq]
      exact List.take_prefix n b.opcodes
    have shorter := (spelled_isPrefix stuck begins).length_le
    have length := congrArg List.length front
    rw [List.length_take, length_opcodes, Nat.min_eq_left inside, List.length_append] at length
    rw [length, List.length_append]
    omega

/-- Decompiling is exact. A body is decompiled exactly if it is the prologue, windows, and then its
end or a `ret`; the commands of the windows are the only ones that spell it, and they, the literal
of the prologue and the flag of the last input are what is recovered. Without the prologue that is
the error, and otherwise the error is at the end of the longest beginning that is the prologue and
whole windows. The order in which windows are tried makes no difference.
-/
theorem decompile_exact (b : Body)
    : ((∃ d, b.decompile = .ok d) ↔ b.Opens ∧ ∃ ws, b.Spells ws)
      ∧ (∀ ws, b.Opens → b.Spells ws
        → b.decompile
            = .ok { program := { tokens := (ws.map Prod.fst).map .ofCommand }
                    cells := b.literal
                    intercept := inputFlag ws }
          ∧ ∀ other, b.Spells other → other.map Prod.fst = ws.map Prod.fst)
      ∧ (¬b.Opens
        → b.decompile = .error .noPrologue ∨ ∃ type, b.decompile = .error (.elementType type))
      ∧ (b.Opens → (¬∃ ws, b.Spells ws)
        → ∃ index op, b.decompile = .error (.unexpected index op)
          ∧ IsGreatest {n | b.Whole n} index ∧ b.opcodes[index]? = some op)
      ∧ ∀ table, Covers table → decompileBy table b = b.decompile := by
  rw [← decompileBy_all b]
  refine ⟨⟨?_, ?_⟩, ?_, ?_, ?_, ?_⟩
  · rintro ⟨d, done⟩
    by_cases opens : b.Opens
    · by_cases spells : ∃ ws, b.Spells ws
      · exact ⟨opens, spells⟩
      · obtain ⟨_, _, _, _, _, error⟩ := decompileBy_of_not_spells opens covers_all spells
        rw [error] at done
        cases done
    · obtain ⟨e, -, error⟩ := decompileBy_of_not_opens opens
      rw [error] at done
      cases done
  · rintro ⟨opens, ws, spells⟩
    exact ⟨_, decompileBy_of_spells opens covers_all spells⟩
  · intro ws opens spells
    have decompiled := decompileBy_of_spells opens covers_all spells
    refine ⟨decompiled, fun other also => ?_⟩
    have again := decompileBy_of_spells opens covers_all also
    have same := Except.ok.inj (again.symm.trans decompiled)
    have tokens := congrArg (·.program.tokens) same
    exact (List.map_inj_right fun _ _ => ofCommand_injective).mp tokens
  · intro closed
    obtain ⟨e, rfl | ⟨type, rfl⟩, error⟩ := decompileBy_of_not_opens closed
    · exact .inl (error _)
    · exact .inr ⟨type, error _⟩
  · intro opens spells
    obtain ⟨ws, op, more, eq, stuck, error⟩ := decompileBy_of_not_spells opens covers_all spells
    refine ⟨_, op, error, isGreatest_whole eq stuck, ?_⟩
    rw [eq, List.getElem?_append_right le_rfl, Nat.sub_self]
    rfl
  · intro table covers
    exact decompileBy_covers b covers covers_all

/-- Windows with more behind a `ret` are recognised, also with a branch that leads nowhere; where
the `ret` is missing, a window is cut short. The nine windows are tried from the last one on.
-/
theorem decompile_exact_cut
    : let ending (more : List Instruction) : Body :=
        { code := (Window.prologue 7 ++ Window.input false ++ Window.loopStart 99 ++ more).toArray }
      let whole := ending [⟨.ret, .none⟩, ⟨.dup, .none⟩]
      let cut := ending [⟨.nop, .none⟩, ⟨.ldloc0, .none⟩]
      let table : List (Command × Bool) :=
        [(.loopEnd, true), (.loopStart, true), (.input, false), (.input, true), (.output, true),
          (.decrement, true), (.increment, true), (.moveLeft, true), (.moveRight, true)]
      (whole.Opens ∧ whole.Spells [(.input, false), (.loopStart, true)]
        ∧ whole.decompile
          = .ok { program := { tokens := [.ofCommand .input, .ofCommand .loopStart] }
                  cells := 7
                  intercept := false })
      ∧ (cut.Opens ∧ (¬∃ ws, cut.Spells ws) ∧ IsGreatest {n | cut.Whole n} 16)
      ∧ Covers table
      ∧ decompileBy table cut = cut.decompile := by
  intro ending whole cut table
  have opens : whole.Opens := ⟨by decide, _, rfl, rfl⟩
  have spells : whole.Spells [(.input, false), (.loopStart, true)] :=
    ⟨[.ret, .dup], by decide, .inr ⟨[.dup], rfl⟩⟩
  have recovered := ((decompile_exact whole).2.1 _ opens spells).1
  have begins : cut.Opens := ⟨by decide, _, rfl, rfl⟩
  have error : cut.decompile = .error (.unexpected 16 .nop) := by decide
  obtain ⟨accepted, -, -, rejected, tables⟩ := decompile_exact cut
  have stops : ¬∃ ws, cut.Spells ws := by
    intro spells
    obtain ⟨d, done⟩ := accepted.mpr ⟨begins, spells⟩
    rw [error] at done
    cases done
  have covers : Covers table := by
    have every : ∀ w ∈ Window.all, ∃ v ∈ table, SameWindow v w := by decide
    exact fun w => every w (mem_all w)
  obtain ⟨index, op, again, greatest, -⟩ := rejected begins stops
  rw [error] at again
  cases again
  exact ⟨⟨opens, spells, recovered⟩, ⟨begins, stops, greatest⟩, covers, tables table covers⟩

end Body
end TapeIL
