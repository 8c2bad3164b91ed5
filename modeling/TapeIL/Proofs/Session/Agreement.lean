import TapeIL.CommandLine.Run
import TapeIL.Proofs.CommandLine.Action
import TapeIL.Proofs.Session.Isolation
import TapeIL.Report

/-! Sessions and terminals agree. On the same input a body does the same in a session as on a
terminal, tick by tick; only running out of input goes by different names. So a program that passes
verification runs on the console as its report says.
-/

namespace TapeIL

------------------------------------------------------------------------------------------
-- consoles
------------------------------------------------------------------------------------------

/-- The error with the two names for the end of the input exchanged: a session says that its input
is exhausted, a terminal that it has come to the end.
-/
def ConsoleError.counterpart : ConsoleError → ConsoleError
  | .inputExhausted => .endOfInput
  | .endOfInput => .inputExhausted
  | error => error

namespace Terminal

/-- The input that is left, buffered or not, and the output. -/
def feed (t : Terminal) : Feed :=
  { input := t.buffered ++ t.source, output := t.output }

theorem feed_fill (t : Terminal) : t.fill.feed = t.feed := by
  unfold fill
  split
  next empty =>
    rw [List.isEmpty_iff] at empty
    simp [feed, empty]
  next => rfl

/-- A buffer is empty after it was filled only if there is no input left. -/
theorem input_of_fill {t : Terminal} (h : t.fill.buffered = []) : t.fill.feed.input = [] := by
  rw [feed_fill]
  unfold fill at h
  split at h
  next empty =>
    rw [List.isEmpty_iff] at empty
    have none : t.source = [] := by simpa [blockSize] using h
    simp [feed, empty, none]
  next full => simp [h] at full

end Terminal

/-- Buffering is all that a terminal does to its input. -/
theorem Console.shows_terminal
    : Console.session.Shows Terminal.feed ConsoleError.counterpart Console.terminal where
  write unit t := rfl
  readKey intercept t := by
    change Feed.readKey intercept t.feed = _
    simp only [terminal, readThrough]
    rw [← t.feed_fill]
    cases buffered : t.fill.buffered with
    | nil =>
        have none := Terminal.input_of_fill buffered
        simp only [Feed.readKey, none, Except.mapError, ConsoleError.counterpart]
    | cons b rest =>
        have some : t.fill.feed.input = b :: (rest ++ t.fill.source) := by
          rw [Terminal.feed, buffered]
          rfl
        simp only [Feed.readKey, some]
        cases intercept with
        | true => rfl
        | false => rfl

namespace Session

/-- Any number of ticks in a session and on a terminal that has the same input. -/
theorem after_ticks_terminal (name : Bytes) (limit : Int) (body : Body) (input : Bytes)
    (count : Nat)
    : let s := (((new name limit).feedIn input).map body).after (List.replicate count .tick)
      let on := ((Machine.new limit).map body).ticks Console.terminal count { source := input }
      s.machine = on.1.rename .counterpart ∧ s.feed = on.2.feed := by
  have same := Machine.ticks_rename Console.shows_terminal count
    ((Machine.new limit).map body) { source := input }
  rw [Machine.rename_of_running rfl] at same
  rw [after_ticks]
  exact ⟨congrArg Prod.fst same, congrArg Prod.snd same⟩

end Session

------------------------------------------------------------------------------------------
-- executions
------------------------------------------------------------------------------------------

/-- The records of a trace make no difference to the run. -/
theorem Machine.runTraced_eq_run {σ : Type} (c : Console σ) (name : Bytes) (fuel : Nat)
    (records : Array Log.Record) (m : Machine) (s : σ)
    : (m.runTraced c name fuel records s).2 = m.run c fuel s := by
  induction fuel generalizing records m s with
  | zero => rfl
  | succ fuel ih =>
      rw [runTraced, run_succ]
      dsimp only
      split
      · exact ih _ _ _
      · rfl

/-- An execution runs the machine on a terminal, traced or not. -/
theorem World.execute_eq_run (fuel : Nat) (body : Body) (limit : Int) (trace : Bool) (w : World)
    : let on := ((Machine.new limit).map body).run Console.terminal fuel { source := w.stdin }
      (w.execute fuel ⟨body, limit, trace⟩).1 = on.1
      ∧ (w.execute fuel ⟨body, limit, trace⟩).2.stdout = w.stdout ++ on.2.output.toList := by
  cases trace with
  | true =>
      rw [← Machine.runTraced_eq_run Console.terminal coreName fuel #[]]
      exact ⟨rfl, rfl⟩
  | false => exact ⟨rfl, rfl⟩

/-- A session that ends without an error has run its machine to a halt. -/
theorem Session.halted_of_run {fuel : Nat} {s : Session} (ended : (s.run fuel).1 = none)
    : let on := s.machine.run Console.session fuel s.feed
      on.1.halted = true ∧ on.1.error? = none ∧ (s.run fuel).2.feed = on.2 := by
  cases mapped : s.mapped with
  | false => simp [Session.run, mapped] at ended
  | true =>
      by_cases crash : (s.machine.drive Console.session fuel s.feed).1 = .crash
      · simp [Session.run, mapped, crash] at ended
      · cases halted : (s.machine.run Console.session fuel s.feed).1.halted with
        | false =>
            rw [Machine.run] at halted
            simp [Session.run, mapped, crash, halted] at ended
        | true =>
            rw [Machine.run] at halted ⊢
            simp only [Session.run, mapped, if_true, if_neg crash, halted,
              Option.map_eq_none_iff] at ended ⊢
            exact ⟨trivial, ended, trivial⟩

/-- A report that passes is one of a session that halted without an error. -/
theorem Report.halted_of_passed {fuel : Nat} {body : Body} {input : Bytes} {limit : Int}
    (passed : (generate fuel body input limit).passed = true)
    : let on := ((Machine.new limit).map body).run Console.session fuel { input }
      on.1.halted = true ∧ on.1.error? = none
      ∧ (generate fuel body input limit).output = on.2.output.toList := by
  have sound : (body.lint.all fun i => i.category != .structural) = true := by
    by_contra broken
    simp [Report.passed, executedWell, generate, broken] at passed
  simp only [Report.passed, executedWell, generate, sound, if_true, Bool.and_eq_true,
    Option.isNone_iff_eq_none] at passed
  let session := ((Session.new (text "Verify") limit).feedIn input).map body
  have ended : (session.run fuel).1 = none := passed.2
  obtain ⟨halted, error, feed⟩ := Session.halted_of_run ended
  refine ⟨halted, error, ?_⟩
  simp only [Report.output, generate, sound, if_true, Option.map_some, Option.getD_some]
  exact congrArg (fun feed => feed.output.toList) feed

/-- Passed programs run on the console: the machine halts without an error, and prints the output
that the report shows.
-/
theorem World.execute_of_passed {fuel : Nat} {body : Body} {limit : Int} {w : World}
    (passed : (Report.generate fuel body w.stdin limit).passed = true) (more : Nat) (trace : Bool)
    : let on := w.execute (fuel + more) ⟨body, limit, trace⟩
      on.1.halted = true ∧ on.1.error? = none
      ∧ on.2.stdout = w.stdout ++ (Report.generate fuel body w.stdin limit).output := by
  obtain ⟨halted, error, output⟩ := Report.halted_of_passed passed
  have shown := Machine.run_rename Console.shows_terminal fuel ((Machine.new limit).map body)
    { source := w.stdin }
  rw [Machine.rename_of_running rfl] at shown
  change ((Machine.new limit).map body).run Console.session fuel { input := w.stdin } = _ at shown
  rw [shown, Machine.halted_rename] at halted
  rw [shown, Machine.error?_rename, Option.map_eq_none_iff] at error
  rw [shown] at output
  obtain ⟨same, stdout⟩ := w.execute_eq_run (fuel + more) body limit trace
  rw [Machine.run_add_of_halted Console.terminal fuel more _ halted] at same stdout
  intro on
  exact ⟨by rw [same]; exact halted, by rw [same]; exact error, by rw [stdout, output]; rfl⟩

/-- The command that runs a program succeeds on one that passes, and prints what the report shows.
-/
theorem CommandLine.Action.run_of_passed {fuel more : Nat} {w loaded : World}
    {arguments : List Bytes} {s : RunSettings} {path : Bytes} {body : Body}
    (passed : (Report.generate fuel body w.stdin s.limit).passed = true)
    (parsed : RunSettings.form.arguments? {} arguments = .ok (s, path))
    (present : (checkInput path).on (fuel + more) w = (.ok (), w))
    (found : (loadProgram path s.trace).on (fuel + more) w = (.ok body, loaded))
    : let on := (run arguments).on (fuel + more) w
      on.1 = .ok ()
      ∧ on.2.stdout = w.stdout ++ (Report.generate fuel body w.stdin s.limit).output := by
  have start : (RunSettings.form.parse {} arguments).on (fuel + more) w = (.ok (s, path), w) := by
    rw [Form.parse, parsed]
    rfl
  obtain ⟨stderr, quiet⟩ := quiet_loadProgram path s.trace (fuel + more) w
  rw [found] at quiet
  obtain rfl : loaded = { w with stderr } := quiet
  obtain ⟨-, error, stdout⟩ :=
    World.execute_of_passed (w := { w with stderr }) passed more s.trace
  rw [run, on_bind_ok start, on_bind_ok present, on_bind_ok found, on_bind_ok (on_execute _ _ _)]
  cases trace : s.trace with
  | true =>
      rw [trace] at error stdout
      simp only [if_true, on_bind, on_report, error]
      exact ⟨rfl, stdout⟩
  | false =>
      rw [trace] at error stdout
      simp only [Bool.false_eq_true, if_false, error]
      exact ⟨rfl, stdout⟩

------------------------------------------------------------------------------------------
-- agreement
------------------------------------------------------------------------------------------

/-- Sessions and terminals agree. After any number of ticks the machine of a session and a machine
on a terminal with the same input are in the same state, the same bytes were written, and the
errors correspond. So whenever a body passes verification, its execution on the console halts
without an error and prints the output of the report, and the command that runs it succeeds.
-/
theorem Session.agrees_with_terminal (name : Bytes) (limit : Int) (body : Body) (input : Bytes)
    : (∀ count,
        let s := (((new name limit).feedIn input).map body).after (List.replicate count .tick)
        let on := ((Machine.new limit).map body).ticks Console.terminal count { source := input }
        s.machine.pc = on.1.pc
        ∧ s.machine.stack = on.1.stack
        ∧ s.machine.locals = on.1.locals
        ∧ s.machine.heap = on.1.heap
        ∧ s.machine.steps = on.1.steps
        ∧ s.machine.halted = on.1.halted
        ∧ s.machine.error? = on.1.error?.map (Failure.rename .counterpart)
        ∧ s.collect = on.2.output.toList)
      ∧ ∀ (fuel more : Nat) (w : World), w.stdin = input
        → (Report.generate fuel body input limit).passed = true
        → (∀ trace,
            let on := w.execute (fuel + more) ⟨body, limit, trace⟩
            on.1.halted = true ∧ on.1.error? = none
            ∧ on.2.stdout = w.stdout ++ (Report.generate fuel body input limit).output)
          ∧ ∀ arguments (s : CommandLine.RunSettings) path loaded,
            CommandLine.RunSettings.form.arguments? {} arguments = .ok (s, path)
            → s.limit = limit
            → (CommandLine.Action.checkInput path).on (fuel + more) w = (.ok (), w)
            → (CommandLine.Action.loadProgram path s.trace).on (fuel + more) w
                = (.ok body, loaded)
            → let on := (CommandLine.Action.run arguments).on (fuel + more) w
              on.1 = .ok ()
              ∧ on.2.stdout = w.stdout ++ (Report.generate fuel body input limit).output := by
  constructor
  · intro count s on
    obtain ⟨machine, feed⟩ := after_ticks_terminal name limit body input count
    rw [show s.machine = _ from machine, Machine.halted_rename, Machine.error?_rename, collect,
      show s.feed = _ from feed]
    exact ⟨rfl, rfl, rfl, rfl, rfl, rfl, rfl, rfl⟩
  · rintro fuel more w rfl passed
    refine ⟨World.execute_of_passed passed more, ?_⟩
    rintro arguments s path loaded parsed rfl present found
    exact CommandLine.Action.run_of_passed passed parsed present found

/-- A body that echoes a key passes verification, and echoes it on the console. -/
theorem Session.agrees_with_terminal_echo
    : let body : Body :=
        { locals := [.keyInfo]
          code := #[⟨.ldcI4Zero, .none⟩, ⟨.call, .method .consoleReadKey⟩, ⟨.stloc0, .none⟩,
            ⟨.ret, .none⟩] }
      let w : World := { files := .empty, stdin := text "é", stdout := text "> " }
      (Report.generate 9 body w.stdin 4).passed = true
      ∧ ∀ trace, (w.execute 9 ⟨body, 4, trace⟩).2.stdout = text "> Ã" := by
  intro body w
  have passed : (Report.generate 9 body w.stdin 4).passed = true := by decide
  refine ⟨passed, fun trace => ?_⟩
  obtain ⟨-, -, stdout⟩ :=
    ((agrees_with_terminal [] 4 body w.stdin).2 9 0 w rfl passed).1 trace
  rw [stdout]
  decide

end TapeIL
