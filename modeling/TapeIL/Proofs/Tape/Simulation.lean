import TapeIL.Proofs.Tape.Brackets
import TapeIL.Proofs.Tape.Layout
import TapeIL.Proofs.Tape.Windows

/-! Compiled programs run as their tape programs do. Every step of a tape run is matched by at
least one instruction, so the two runs halt together and leave the same behind.
-/

namespace TapeIL

variable {σ : Type}

/-- How a machine has ended, in the words of the tape. -/
def Machine.outcome? (m : Machine) : Option Tape.Outcome :=
  match m.status with
  | .returned => some .finished
  | .failed (.instruction _ _ (.outOfRange index length)) => some (.outOfRange index length)
  | .failed (.instruction _ _ (.console cause)) => some (.console cause)
  | _ => none

namespace Tape

-----------------------------------------------------------------------------------------
-- Where control is
-----------------------------------------------------------------------------------------

/-- Where the test of a loop stands whose code starts at `start`. -/
def closeOf (intercept : Bool) (start : Nat) (body : Block) : Nat :=
  start + 2 + (body.code intercept (start + 2)).length

/-- The whole code of a loop stands at `start`. -/
def LoopAt (intercept : Bool) (b : Body) (start : Nat) (body : Block) : Prop :=
  b.HasAt start
    (Window.loopStart (closeOf intercept start body) ++ body.code intercept (start + 2)
      ++ Window.loopEnd start)

/-- Control at an instruction is in front of what is left of a run. A loop may be met at its entry
jump or, between two of its rounds, at its test.
-/
inductive At (intercept : Bool) (b : Body) : Nat → Block → Prop
  | done {pc} (here : b.code[pc]? = some ⟨.ret, .none⟩) : At intercept b pc .done
  | action {pc a rest} (here : b.HasAt pc (Window.ofCommand intercept 0 a.command))
    (next : At intercept b (pc + Window.length a.command) rest)
    : At intercept b pc (.action a rest)
  | enter {start body rest} (here : LoopAt intercept b start body)
    (next : At intercept b (closeOf intercept start body + 5) rest)
    : At intercept b start (.loop body rest)
  | again {start body rest} (here : LoopAt intercept b start body)
    (next : At intercept b (closeOf intercept start body + 5) rest)
    : At intercept b (closeOf intercept start body) (.loop body rest)

/-- The pieces of a loop's code: the entry jump, the body, the test and the jump back. -/
theorem LoopAt.pieces {intercept : Bool} {b : Body} {start : Nat} {body : Block}
    (h : LoopAt intercept b start body)
    : b.code[start]? = some ⟨.br, .target (.position (closeOf intercept start body))⟩
      ∧ b.code[start + 1]? = some ⟨.nop, .none⟩
      ∧ b.HasAt (start + 2) (body.code intercept (start + 2))
      ∧ b.HasAt (closeOf intercept start body) test
      ∧ b.code[closeOf intercept start body + 4]?
          = some ⟨.brtrue, .target (.position (start + 1))⟩ := by
  obtain ⟨front, ending⟩ := (Body.hasAt_append _ _ _ _).mp h
  obtain ⟨⟨jump, skip, -⟩, inner⟩ := (Body.hasAt_append _ _ _ _).mp front
  have close : start
        + (Window.loopStart (closeOf intercept start body)
          ++ body.code intercept (start + 2)).length
      = closeOf intercept start body := by
    simp [closeOf, Window.loopStart]
    omega
  rw [close] at ending
  obtain ⟨first, second, third, fourth, back, -⟩ := ending
  exact ⟨jump, skip, inner, ⟨first, second, third, fourth, trivial⟩, back⟩

/-- In front of a block's code control is in front of the block and of what comes behind it, by
induction on the block.
-/
theorem at_append {intercept : Bool} {b : Body} {block next : Block} {pc : Nat}
    (here : b.HasAt pc (block.code intercept pc))
    (behind : At intercept b (pc + (block.code intercept pc).length) next)
    : At intercept b pc (block.append next) := by
  induction block generalizing pc with
  | done => exact behind
  | action a rest ih =>
      simp only [Block.code, Body.hasAt_append, List.length_append, length_window] at here behind
      exact .action here.1 (ih here.2 (by rwa [Nat.add_assoc]))
  | loop body rest _ ih =>
      simp only [Block.code] at here behind
      rw [Body.hasAt_append] at here
      have close : pc
            + (Window.loopStart (closeOf intercept pc body) ++ body.code intercept (pc + 2)
              ++ Window.loopEnd pc).length
          = closeOf intercept pc body + 5 := by
        simp [closeOf, Window.loopStart, Window.loopEnd]
        omega
      refine .enter here.1 (ih (close ▸ here.2) ?_)
      rw [List.length_append, ← Nat.add_assoc] at behind
      exact close ▸ behind

-----------------------------------------------------------------------------------------
-- One step of the tape
-----------------------------------------------------------------------------------------

/-- A machine and its console are where a run of the tape is: they carry its state, and are in
front of what is left of it or have ended as it has.
-/
structure Matches (intercept : Bool) (m : Machine) (s : σ) (r : Run σ) : Prop where
  carried : Carries (m.frame s) r.state
  going
    : r.outcome? = none
      → m.status = .running
        ∧ m.limit = none
        ∧ m.stack = []
        ∧ At intercept m.body m.pc r.rest
  ended : ∀ outcome, r.outcome? = some outcome → m.outcome? = some outcome

theorem halted_of_outcome? {m : Machine} {outcome : Outcome} (h : m.outcome? = some outcome)
    : m.halted = true := by
  unfold Machine.outcome? at h
  unfold Machine.halted
  cases hs : m.status <;> simp_all

theorem outcome?_fail {m : Machine} {f : Frame σ} {op : OpCode} {e : Fault} {outcome : Outcome}
    (h : outcome.fault? = some e)
    : (m.fail f op e).outcome? = some outcome := by
  cases outcome <;> simp only [Outcome.fault?, Option.some.injEq, reduceCtorEq] at h
  · subst h
    rfl
  · subst h
    rfl

/-- A run that goes on is matched by a running machine in front of what is left. -/
theorem matches_going {intercept : Bool} {m : Machine} {s : σ} {r : Run σ}
    (carried : Carries (m.frame s) r.state) (none : r.outcome? = none)
    (running : m.status = .running) (unlimited : m.limit = Option.none) (empty : m.stack = [])
    (control : At intercept m.body m.pc r.rest)
    : Matches intercept m s r :=
  ⟨carried, fun _ => ⟨running, unlimited, empty, control⟩, fun _ h => by simp [none] at h⟩

/-- A run that has ended is matched by a machine that has ended the same way. -/
theorem matches_ended {intercept : Bool} {m : Machine} {s : σ} {r : Run σ} {outcome : Outcome}
    (carried : Carries (m.frame s) r.state) (some : r.outcome? = Option.some outcome)
    (ended : m.outcome? = Option.some outcome)
    : Matches intercept m s r :=
  ⟨carried, fun h => by simp [some] at h, fun _ h => by rw [ended, ← h, some]⟩

section Step

variable {c : Console σ} {intercept : Bool} {m : Machine} {s : σ} {r : Run σ}

/-- Straight-line code that meets an action brings the machine to where the action leaves the
run.
-/
theorem goes_window {code : List Instruction} {expected : Option Outcome × State σ} {rest : Block}
    (running : m.status = .running) (unlimited : m.limit = none)
    (here : m.body.HasAt m.pc code) (straight : code.all Instruction.isStraight = true)
    (prints : code.all Instruction.prints = true) (some : 0 < code.length)
    (met : Meets ((Exec.block c code).on (m.frame s)) expected)
    (control : At intercept m.body (m.pc + code.length) rest)
    : ∃ count next t,
        0 < count
        ∧ Machine.Goes c count m s next t
        ∧ Matches intercept next t ⟨rest, expected.2, expected.1⟩ := by
  obtain ⟨carried, met⟩ := met
  cases ho : (Exec.block c code).on (m.frame s) with
  | mk result f =>
      rw [ho] at carried met
      obtain ⟨outcome?, state⟩ := expected
      cases outcome? with
      | none =>
          obtain ⟨rfl, empty⟩ := met
          have goes := Machine.goes_block running unlimited here straight prints ho
          exact ⟨_, _, _, some, goes,
            matches_going carried rfl running unlimited empty control⟩
      | some outcome =>
          obtain ⟨e, he, rfl⟩ := met
          obtain ⟨count, last, op, positive, goes⟩ :=
            Machine.goes_block_fault running unlimited here straight prints ho
          exact ⟨count, _, _, positive, goes, matches_ended carried rfl (outcome?_fail he)⟩

theorem straight_action (a : Action)
    : (Window.ofCommand intercept 0 a.command).all Instruction.isStraight = true := by
  cases a <;> cases intercept <;> rfl

theorem prints_action (a : Action)
    : (Window.ofCommand intercept 0 a.command).all Instruction.prints = true := by
  cases a <;> cases intercept <;> rfl

theorem size_of_found {b : Body} {i : Instruction} {pc : Nat} (h : b.code[pc]? = some i)
    : pc < b.size :=
  (Array.getElem?_eq_some_iff.mp h).1

theorem ofByte_eq_zero {b : UInt8} : Int32.ofNat b.toNat = 0 ↔ b = 0 := by
  constructor
  · intro h
    have low := congrArg (fun v : Int32 => v.toInt8.toUInt8) h
    simp only [Int32.toInt8_ofNat', Int8.toUInt8_ofNat', UInt8.ofNat_toNat] at low
    exact low
  · rintro rfl
    rfl

/-- From a loop's test the machine follows the tape out of the loop or into its next round. -/
theorem goes_test {start : Nat} {body rest : Block} {state : State σ}
    (running : m.status = .running) (unlimited : m.limit = none) (empty : m.stack = [])
    (carried : Carries (m.frame s) state) (place : m.pc = closeOf intercept start body)
    (here : LoopAt intercept m.body start body)
    (behind : At intercept m.body (closeOf intercept start body + 5) rest)
    : ∃ count next t,
        0 < count
        ∧ Machine.Goes c count m s next t
        ∧ Matches intercept next t (Run.step c intercept ⟨.loop body rest, state, none⟩) := by
  obtain ⟨cells, key, hb, hf⟩ := carried.eq_frame empty
  obtain ⟨-, skip, inner, testing, back⟩ := here.pieces
  have ran := test_on c cells state.pointer key state.console
  have current := current?_eq hb
  have still : Carries (frame cells state.pointer key state.console) state :=
    carries_frame key hb
  rw [← place] at testing
  split at ran
  case isFalse outside =>
    rw [if_neg outside] at current
    obtain ⟨count, last, op, positive, goes⟩ :=
      Machine.goes_block_fault running unlimited testing rfl rfl ((congrArg _ hf).trans ran)
    refine ⟨count, _, _, positive, goes, ?_⟩
    simp only [Run.step, current]
    refine matches_ended still rfl (outcome?_fail ?_)
    rw [State.outside, ← hb, Cells.length_bytes]
    rfl
  case isTrue inside =>
    rw [if_pos inside] at current
    have tested := Machine.goes_block running unlimited testing rfl rfl
      ((congrArg _ hf).trans ran)
    let value := Int32.ofNat (cells.get state.pointer.toInt.toNat).toNat
    let middle := m.advance test.length
      { frame cells state.pointer key state.console with stack := [.int value] }
    have jumped := Machine.goes_jumpIfTrue (c := c) (m := middle) (s := state.console) running
      unlimited (by rw [← place] at back; exact back) (size_of_found skip) rfl
    have both := tested.trans jumped
    simp only [Run.step, current]
    by_cases zero : cells.get state.pointer.toInt.toNat = 0
    · rw [if_pos (ofByte_eq_zero.mpr zero)] at both
      refine ⟨_, _, _, by omega, both, ?_⟩
      refine matches_going still rfl running unlimited rfl ?_
      simp only [zero, if_true]
      rw [← place] at behind
      exact behind
    · rw [if_neg (fun h => zero (ofByte_eq_zero.mp h))] at both
      let popped := middle.advance 1 { middle.frame state.console with stack := [] }
      let inside := { popped with pc := start + 1 }
      have entered := Machine.goes_straight (c := c) (m := inside) (s := state.console)
        running unlimited skip rfl rfl rfl
      refine ⟨_, _, _, by omega, both.trans entered, ?_⟩
      refine matches_going still rfl running unlimited rfl ?_
      simp only [zero, if_false]
      exact at_append inner (.again here behind)

/-- Every step of the tape is matched by at least one tick of the machine, by cases on where
control is.
-/
theorem goes_step (matched : Matches intercept m s r) (going : r.outcome? = none)
    : ∃ count next t,
        0 < count
        ∧ Machine.Goes c count m s next t
        ∧ Matches intercept next t (r.step c intercept) := by
  obtain ⟨running, unlimited, empty, control⟩ := matched.going going
  have carried := matched.carried
  obtain ⟨rest, state, outcome?⟩ := r
  obtain rfl : outcome? = none := going
  generalize place : m.pc = pc at control
  cases control with
  | done here =>
      have goes := Machine.goes_execute (c := c) (s := s) running unlimited (place ▸ here) rfl
      exact ⟨1, _, _, Nat.one_pos, goes, matches_ended carried rfl rfl⟩
  | @action _ a _ here next =>
      subst place
      have met := perform_window c intercept a carried empty
      exact goes_window running unlimited here (straight_action a) (prints_action a)
        (by rw [length_window]; cases a <;> decide) met (by rwa [length_window])
  | enter here next =>
      subst place
      obtain ⟨jump, -, -, testing, -⟩ := here.pieces
      have entered := Machine.goes_jump (c := c) (s := s) running unlimited jump
        (size_of_found testing.1)
      obtain ⟨count, last, t, positive, goes, ended⟩ := goes_test (c := c)
        (m := { m.advance 1 (m.frame s) with pc := closeOf intercept m.pc _ })
        running unlimited empty carried rfl here next
      exact ⟨1 + count, last, t, by omega, entered.trans goes, ended⟩
  | again here next => exact goes_test running unlimited empty carried place here next

/-- Any number of steps of the tape is matched by at least as many ticks, unless the tape has
ended, by induction on the steps.
-/
theorem goes_after (matched : Matches intercept m s r) (steps : Nat)
    : ∃ count next t,
        Machine.Goes c count m s next t
        ∧ Matches intercept next t (r.after c intercept steps)
        ∧ ((r.after c intercept steps).outcome? = none → steps ≤ count) := by
  induction steps generalizing m s r with
  | zero => exact ⟨0, m, s, .refl c m s, matched, fun _ => Nat.le_refl 0⟩
  | succ steps ih =>
      cases ended : r.outcome? with
      | none =>
          obtain ⟨first, middle, t, positive, step, there⟩ := goes_step (c := c) matched ended
          obtain ⟨second, last, u, run, final, enough⟩ := ih there
          refine ⟨first + second, last, u, step.trans run, final, fun h => ?_⟩
          have := enough h
          omega
      | some outcome =>
          have stays := Run.after_of_ended c intercept (steps + 1) ended
          refine ⟨0, m, s, .refl c m s, by rwa [stays], fun h => ?_⟩
          rw [stays, ended] at h
          cases h

/-- A machine that matches the start of a run halts exactly if the run ends. -/
theorem halts_iff (matched : Matches intercept m s r)
    : (∃ fuel, (m.run c fuel s).1.halted = true)
      ↔ ∃ steps, (r.after c intercept steps).outcome?.isSome = true := by
  constructor
  · rintro ⟨fuel, halted⟩
    obtain ⟨count, next, t, goes, there, enough⟩ := goes_after (c := c) matched fuel
    cases going : (r.after c intercept fuel).outcome? with
    | some outcome => exact ⟨fuel, by simp [going]⟩
    | none =>
        -- The machine is still running after more ticks than it is said to halt in.
        obtain ⟨more, rfl⟩ := Nat.le.dest (enough going)
        have reached := goes.run_eq
        rw [Machine.run_add_of_halted c fuel more s halted] at reached
        rw [reached] at halted
        simp [Machine.halted, (there.going going).1] at halted
  · rintro ⟨steps, ended⟩
    obtain ⟨outcome, ended⟩ := Option.isSome_iff_exists.mp ended
    obtain ⟨count, next, t, goes, there, -⟩ := goes_after (c := c) matched steps
    exact ⟨count, by rw [goes.run_eq]; exact halted_of_outcome? (there.ended outcome ended)⟩

/-- A halted machine matches every ended stage of the run it started with. -/
theorem matches_of_halted (matched : Matches intercept m s r) {fuel steps : Nat}
    (halted : (m.run c fuel s).1.halted = true)
    (ended : (r.after c intercept steps).outcome?.isSome = true)
    : Matches intercept (m.run c fuel s).1 (m.run c fuel s).2 (r.after c intercept steps) := by
  obtain ⟨outcome, ended⟩ := Option.isSome_iff_exists.mp ended
  obtain ⟨count, next, t, goes, there, -⟩ := goes_after (c := c) matched steps
  have same := Machine.run_eq_of_halted c s halted
    (by rw [goes.run_eq]; exact halted_of_outcome? (there.ended outcome ended))
  rw [same, goes.run_eq]
  exact there

end Step

-----------------------------------------------------------------------------------------
-- Whole programs
-----------------------------------------------------------------------------------------

theorem append_done (b : Block) : b.append .done = b := by
  induction b with
  | done => rfl
  | action a rest ih => rw [Block.append, ih]
  | loop body rest _ ih => rw [Block.append, ih]

/-- The code of a whole program is the prologue, the code of its block and a `ret`. -/
theorem body_block (cells : Int32) (intercept : Bool) (b : Block)
    : (body cells intercept b.commands).HasAt 0 (Window.prologue cells)
      ∧ At intercept (body cells intercept b.commands) 5 b := by
  have laid := layout_block intercept b 5 [] []
  rw [List.append_nil] at laid
  have whole : (body cells intercept b.commands).code.toList
      = [] ++ (Window.prologue cells ++ b.code intercept 5 ++ [⟨.ret, .none⟩]) := by
    simp [body, Window.prologue, laid, layout]
  obtain ⟨front, last⟩ := (Body.hasAt_append _ _ _ _).mp (Body.hasAt_of_toList whole)
  obtain ⟨front, inner⟩ := (Body.hasAt_append _ _ _ _).mp front
  refine ⟨front, ?_⟩
  have ret : At intercept (body cells intercept b.commands)
      (5 + (b.code intercept 5).length) .done := by
    refine .done ?_
    simpa [Window.prologue, Nat.add_comm 5] using last.1
  have joined := at_append inner ret
  rwa [append_done] at joined

/-- The prologue brings a newly mapped machine to the start of the tape run. -/
theorem goes_prologue (c : Console σ) (s : σ) (intercept : Bool) (b : Block) {cells : Int32}
    (positive : 0 ≤ cells.toInt) {m : Machine} (unlimited : m.limit = none)
    : ∃ next,
        Machine.Goes c 5 (m.map (body cells intercept b.commands)) s next s
        ∧ Matches intercept next s (Run.start cells.toInt.toNat b s) := by
  obtain ⟨front, control⟩ := body_block cells intercept b
  have goes := Machine.goes_block (c := c) (s := s)
    (m := m.map (body cells intercept b.commands)) rfl unlimited front rfl rfl
    (prologue_on c s positive)
  exact ⟨_, goes, matches_going ⟨_, 0, rfl, rfl, Cells.bytes_new _, rfl⟩ rfl rfl unlimited rfl
    control⟩

/-- The bracket check accepts the tokens of a block, whatever offsets they carry. -/
theorem compile_block {p : Program} {b : Block} {o : Options} {version : Version}
    (nested : p.tokens = b.tokens) (valid : o.check = .ok version)
    : p.compile o = .ok (body (Int32.ofInt o.cells) o.intercept b.commands) := by
  exact compile_eq_ok_iff.mpr ⟨version, b.commands, valid, nested, balanced_commands b, rfl⟩

/-- A machine and a run of the tape, on consoles that record their calls, have ended alike. -/
structure EndsAlike (o : Options) (m : Machine) (s : σ × List Console.Call)
    (r : Run (σ × List Console.Call))
    : Prop where
  /-- The console has answered the same calls and is in the same state. -/
  console : s = r.state.console
  keys : ∀ flag, .readKey flag ∈ s.2 → flag = o.intercept
  cells : m.tape?.map Cells.bytes = some r.state.cells
  count : (r.state.cells.length : Int) = o.cells
  pointer : m.pointer = r.state.pointer.toInt
  outcome : m.outcome? = r.outcome?

/-- A machine that carries a state shows the state's cells and pointer. -/
theorem Carries.shown {m : Machine} {s : σ} {t : State σ} (h : Carries (m.frame s) t)
    : m.tape?.map Cells.bytes = some t.cells ∧ m.pointer = t.pointer.toInt ∧ s = t.console := by
  obtain ⟨cells, key, hl, hh, hb, hc⟩ := h
  simp only [Machine.frame] at hl hh hc
  simp [Machine.tape?, Machine.pointer, hl, hh, hb, hc, Heap.arrayOf]

/-- The run of a body on a new machine, its console recording the calls. -/
def machineRun (c : Console σ) (s : σ) (limit : Int) (code : Body) (fuel : Nat)
    : Machine × σ × List Console.Call :=
  ((Machine.new limit).map code).run c.recorded fuel (s, [])

/-- The run of a block on a new tape, its console recording the calls. -/
def tapeRun (c : Console σ) (s : σ) (o : Options) (b : Block) (steps : Nat)
    : Run (σ × List Console.Call) :=
  (Run.start o.cells.toNat b (s, [])).after c.recorded o.intercept steps

/-- Compiler correctness: the body of a program with matched brackets, on a machine without step
limit, halts exactly if the program does on the tape, and the two end alike.
-/
theorem compile_runs_as_tape (c : Console σ) (s : σ) (p : Program) (b : Block) (o : Options)
    (version : Version) (limit : Int) (nested : p.tokens = b.tokens)
    (valid : o.check = .ok version) (unlimited : limit ≤ 0)
    : ∃ code : Body,
        p.compile o = .ok code
        ∧ ((∃ fuel, (machineRun c s limit code fuel).1.halted = true)
            ↔ ∃ steps, (tapeRun c s o b steps).outcome?.isSome = true)
        ∧ ∀ fuel steps,
            (machineRun c s limit code fuel).1.halted = true
            → (tapeRun c s o b steps).outcome?.isSome = true
            → EndsAlike o (machineRun c s limit code fuel).1 (machineRun c s limit code fuel).2
                (tapeRun c s o b steps) := by
  obtain ⟨positive, same⟩ := cells_of_check valid
  have unlimited : (Machine.new limit).limit = none := by
    simp [Machine.new, Int.not_lt.mpr unlimited]
  have notNegative : 0 ≤ (Int32.ofInt o.cells).toInt := by omega
  obtain ⟨next, goes, matched⟩ :=
    goes_prologue c.recorded (s, []) o.intercept b notNegative unlimited
  rw [same] at matched
  refine ⟨_, compile_block nested valid, goes.halts_iff.trans (halts_iff matched), ?_⟩
  intro fuel steps halted ended
  unfold machineRun tapeRun at *
  have taken := goes.run_of_halted halted
  rw [taken] at halted ⊢
  have final := matches_of_halted matched halted ended
  obtain ⟨cells, pointer, console⟩ := final.carried.shown
  obtain ⟨outcome, ended⟩ := Option.isSome_iff_exists.mp ended
  refine ⟨console, ?_, cells, ?_, pointer, (final.ended outcome ended).trans ended.symm⟩
  · rw [console]
    exact Run.keysRead_after c o.intercept steps (by simp [Run.start, State.KeysRead])
  · rw [Run.length_after]
    simp [Run.start]
    omega

/-- A program that copies its input until a zero key, or until the input is exhausted. -/
theorem compile_runs_as_tape_echo
    : let p := Program.parse (text ",[.,]")
      let b := Block.action .input (.loop (.action .output (.action .input .done)) .done)
      let o : Options := { name := text "Echo", cells := 2, intercept := false }
      let s : Feed := { input := text "ab" }
      p.tokens = b.tokens
      ∧ o.check = .ok { major := 1 }
      ∧ ∃ code : Body,
          p.compile o = .ok code
          ∧ ((∃ fuel, (machineRun .session s 0 code fuel).1.halted = true)
              ↔ ∃ steps, (tapeRun .session s o b steps).outcome?.isSome = true)
          ∧ ∀ fuel steps,
              (machineRun .session s 0 code fuel).1.halted = true
              → (tapeRun .session s o b steps).outcome?.isSome = true
              → EndsAlike o (machineRun .session s 0 code fuel).1
                  (machineRun .session s 0 code fuel).2 (tapeRun .session s o b steps) := by
  intro p b o s
  have nested : p.tokens = b.tokens := by decide
  have valid : o.check = .ok { major := 1 } := by cbv
  exact ⟨nested, valid,
    compile_runs_as_tape .session s p b o { major := 1 } 0 nested valid (Int.le_refl 0)⟩

end Tape
end TapeIL
