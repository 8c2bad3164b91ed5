import TapeIL.Proofs.Machine.Consoles
import TapeIL.Session

/-! Sessions keep programs apart. Whatever was done in a session before, a body that is mapped runs
as in a new session that is fed the input not read yet; only the output is behind the earlier one.
-/

namespace TapeIL

variable {σ τ : Type}

------------------------------------------------------------------------------------------
-- machines at rest
------------------------------------------------------------------------------------------

namespace Machine

/-- Ticked often enough, and without a crash, the machine comes to another one that ticks leave
alone.
-/
def Settles (c : Console σ) (m : Machine) (s : σ) (last : Machine) (t : σ) : Prop :=
  ∃ fuel, m.drive c fuel s = (.rest, last, t)

variable {c : Console σ} {m last : Machine} {s t : σ}

theorem settles_of_rest (rest : m.tick c s = (.rest, last, t)) : m.Settles c s last t :=
  ⟨1, by rw [drive_succ, rest]; rfl⟩

/-- One tick more or less makes no difference to where a machine settles. -/
theorem Settles.tick (h : m.Settles c s last t)
    : (m.tick c s).2.1.Settles c (m.tick c s).2.2 last t := by
  obtain ⟨fuel, reached⟩ := h
  cases fuel with
  | zero => cases reached
  | succ fuel =>
      rw [drive_succ] at reached
      split at reached
      · exact ⟨fuel, reached⟩
      · rw [reached]
        exact settles_of_rest (tick_of_rest reached)

theorem Settles.ticks (h : m.Settles c s last t) (count : Nat)
    : (m.ticks c count s).1.Settles c (m.ticks c count s).2 last t := by
  induction count generalizing m s with
  | zero => exact h
  | succ count ih => exact ih h.tick

/-- Where a machine settles is left alone, by induction on the ticks until then. -/
theorem Settles.rest (h : m.Settles c s last t) : last.tick c t = (.rest, last, t) := by
  obtain ⟨fuel, reached⟩ := h
  induction fuel generalizing m s with
  | zero => cases reached
  | succ fuel ih =>
      rw [drive_succ] at reached
      split at reached
      · exact ih reached
      · exact tick_of_rest reached

/-- A run that stops where ticks change nothing has settled there, unless it has crashed. -/
theorem settles_of_drive {fuel : Nat} (sound : (m.drive c fuel s).1 ≠ .crash)
    (rest : last.tick c t = (.rest, last, t)) (reached : (m.drive c fuel s).2 = (last, t))
    : m.Settles c s last t := by
  induction fuel generalizing m s with
  | zero =>
      cases reached
      exact settles_of_rest rest
  | succ fuel ih =>
      rw [drive_succ] at sound reached
      split at sound
      next step =>
        rw [if_pos step] at reached
        obtain ⟨more, settled⟩ := ih sound reached
        exact ⟨more + 1, by rw [drive_succ, if_pos step, settled]⟩
      next ended =>
        rw [if_neg ended] at reached
        refine settles_of_rest (Prod.ext ?_ reached)
        cases turn : (m.tick c s).1 with
        | rest => rfl
        | step => exact absurd turn ended
        | crash => exact absurd turn sound

theorem Settles.unique {other : Machine} {u : σ} (h : m.Settles c s last t)
    (g : m.Settles c s other u)
    : (other, u) = (last, t) := by
  obtain ⟨fuel, reached⟩ := h
  induction fuel generalizing m s with
  | zero => cases reached
  | succ fuel ih =>
      rw [drive_succ] at reached
      split at reached
      · exact ih g.tick reached
      · obtain ⟨more, again⟩ := g
        cases more with
        | zero => cases again
        | succ more =>
            rw [drive_succ, reached] at again
            cases again
            rfl

/-- A machine settles on every console that shows the one it settles on. -/
theorem Settles.rename {view : τ → σ} {names : ConsoleError → ConsoleError} {d : Console τ}
    {s t : τ} (shows : c.Shows view names d) (h : m.Settles d s last t)
    : (m.rename names).Settles c (view s) (last.rename names) (view t) := by
  obtain ⟨fuel, reached⟩ := h
  exact ⟨fuel, by rw [drive_rename shows, reached]⟩

/-- What a tick keeps: the limit, and that a body was mapped. -/
theorem tick_keeps (c : Console σ) (m : Machine) (s : σ)
    : (m.tick c s).2.1.limit = m.limit
      ∧ (m.status ≠ .idle → (m.tick c s).2.1.status ≠ .idle) := by
  have executed (i : Instruction) : (m.execute c s i).1.status ≠ .idle := by
    rcases outcome : (Exec.instruction c m.body m.pc i).on (m.frame s) with ⟨fault | next, f⟩
    · rw [execute_error outcome]
      nofun
    · rw [execute_ok outcome]
      cases next.returned <;> nofun
  rcases m.tick_cases c s with ⟨-, h⟩ | ⟨-, -, h⟩ | ⟨-, -, -, h⟩ | ⟨i, -, -, -, -, h⟩
    | ⟨i, -, -, -, -, h⟩ <;> rw [h]
  · exact ⟨rfl, id⟩
  · exact ⟨rfl, nofun⟩
  · exact ⟨rfl, nofun⟩
  · exact ⟨(m.execute_keeps c s i).1, fun _ => executed i⟩
  · refine ⟨?_, fun _ => ?_⟩
    · rw [breakOff_eq]
      exact (m.execute_keeps c s i).1
    · rw [breakOff_status]
      have mapped := executed i
      split
      · nofun
      · exact mapped

theorem drive_keeps (c : Console σ) (fuel : Nat) (m : Machine) (s : σ)
    : (m.drive c fuel s).2.1.limit = m.limit
      ∧ (m.status ≠ .idle → (m.drive c fuel s).2.1.status ≠ .idle) := by
  induction fuel generalizing m s with
  | zero => exact ⟨rfl, id⟩
  | succ fuel ih =>
      obtain ⟨limit, mapped⟩ := m.tick_keeps c s
      rw [drive_succ]
      split
      · obtain ⟨limits, still⟩ := ih (m.tick c s).2.1 (m.tick c s).2.2
        exact ⟨limits.trans limit, fun h => still (mapped h)⟩
      · exact ⟨limit, mapped⟩

/-- A machine with a body settles only where it is halted. -/
theorem Settles.halted (h : m.Settles c s last t) (mapped : m.status ≠ .idle)
    : last.halted = true := by
  have rest := h.rest
  obtain ⟨fuel, reached⟩ := h
  have still : last.status ≠ .idle := by
    have kept := (m.drive_keeps c fuel s).2 mapped
    rwa [reached] at kept
  unfold Machine.halted
  cases status : last.status with
  | idle => contradiction
  | running =>
      rcases last.tick_cases c t with ⟨stopped, -⟩ | ⟨-, -, moved⟩ | ⟨-, -, -, moved⟩
        | ⟨i, -, -, -, -, moved⟩ | ⟨i, -, -, -, -, moved⟩
      · contradiction
      · cases status.symm.trans (congrArg (·.2.1.status) (rest.symm.trans moved))
      · cases status.symm.trans (congrArg (·.2.1.status) (rest.symm.trans moved))
      · cases congrArg Prod.fst (rest.symm.trans moved)
      · cases congrArg Prod.fst (rest.symm.trans moved)
  | returned | failed cause => rfl

end Machine

------------------------------------------------------------------------------------------
-- earlier output
------------------------------------------------------------------------------------------

/-- The feed with output that was collected before. -/
def Feed.behind (earlier : Array UInt8) (feed : Feed) : Feed :=
  { feed with output := earlier ++ feed.output }

theorem Feed.write_behind (earlier : Array UInt8) (unit : UInt16) (feed : Feed)
    : (feed.behind earlier).write unit = (feed.write unit).behind earlier := by
  have joined
      : earlier ++ feed.output ++ Text.ofUnit unit
        = earlier ++ (feed.output ++ Text.ofUnit unit) :=
    Array.toList_inj.mp (by simp)
  simp only [write, behind, joined]

/-- A session's console takes no notice of the output so far. -/
theorem Console.shows_behind (earlier : Array UInt8)
    : Console.session.Shows (Feed.behind earlier) id Console.session where
  write unit feed := congrArg (Prod.mk (Except.ok ())) (feed.write_behind earlier unit)
  readKey intercept feed := by
    obtain ⟨input, output⟩ := feed
    cases input with
    | nil => rfl
    | cons b rest =>
        cases intercept with
        | true => rfl
        | false =>
            exact congrArg (Prod.mk (Except.ok _)) (Feed.write_behind earlier _ ⟨rest, output⟩)

------------------------------------------------------------------------------------------
-- histories
------------------------------------------------------------------------------------------

namespace Session

/-- What can be done in a session. -/
inductive Call where
  | feedIn (data : Bytes)
  | map (body : Body)
  | run (fuel : Nat)
  | tick
  | readKey (intercept : Bool)
  | write (unit : UInt16)

def make (s : Session) : Call → Session
  | .feedIn data => s.feedIn data
  | .map body => s.map body
  | .run fuel => (s.run fuel).2
  | .tick => s.tick.2
  | .readKey intercept => (s.readKey intercept).2
  | .write unit => s.write unit

/-- The session behind a history of calls. -/
def after (s : Session) (calls : List Call) : Session :=
  calls.foldl make s

/-- Some history leads from a new session with the given limit to this one. -/
def Reachable (limit : Int) (s : Session) : Prop :=
  ∃ name calls, s = (new name limit).after calls

/-- The session runs to the given error and session, without a crash, and with fuel until a tick
makes no progress.
-/
def Runs (s : Session) (outcome : Option SessionError × Session) : Prop :=
  ∃ fuel, s.run fuel = outcome ∧ outcome.1 ≠ some .crashed
    ∧ (s.mapped = true → outcome.2.tick = (.rest, outcome.2))

/-- What every history keeps: the limit, and that a mapped body is in the machine. -/
structure Prepared (limit : Int) (s : Session) : Prop where
  limit : s.machine.limit = (Machine.new limit).limit
  mapped : s.mapped = true → s.machine.status ≠ .idle

theorem Prepared.make {limit : Int} {s : Session} (h : s.Prepared limit) (call : Call)
    : (s.make call).Prepared limit := by
  cases call with
  | feedIn data | readKey intercept | write unit => exact ⟨h.limit, h.mapped⟩
  | map body => exact ⟨h.limit, fun _ => nofun⟩
  | run fuel =>
      by_cases mapped : s.mapped = true
      · obtain ⟨kept, -⟩ := s.machine.drive_keeps Console.session fuel s.feed
        simp only [Session.make, run, mapped, if_true]
        exact ⟨kept.trans h.limit, nofun⟩
      · rw [Session.make, run, if_neg mapped]
        exact h
  | tick =>
      obtain ⟨kept, still⟩ := s.machine.tick_keeps Console.session s.feed
      exact ⟨kept.trans h.limit, fun mapped => still (h.mapped mapped)⟩

theorem Prepared.after {limit : Int} {s : Session} (h : s.Prepared limit) (calls : List Call)
    : (s.after calls).Prepared limit := by
  induction calls generalizing s with
  | nil => exact h
  | cons call rest ih => exact ih (h.make call)

theorem Reachable.prepared {limit : Int} {s : Session} (h : s.Reachable limit)
    : s.Prepared limit := by
  obtain ⟨name, calls, rfl⟩ := h
  exact Prepared.after ⟨rfl, by simp [new]⟩ calls

------------------------------------------------------------------------------------------
-- runs
------------------------------------------------------------------------------------------

theorem tick_eq_self_iff (s : Session)
    : s.tick = (.rest, s)
      ↔ s.machine.tick Console.session s.feed = (.rest, s.machine, s.feed) := by
  obtain ⟨core, machine, mapped, feed⟩ := s
  simp only [tick, Prod.ext_iff, mk.injEq, true_and]

/-- Fuel with which a run comes to a halt, and to no crash, is enough. -/
theorem runs_of_halted {s : Session} {fuel : Nat} (h : (s.run fuel).2.machine.halted = true)
    (sound : (s.run fuel).1 ≠ some .crashed)
    : s.Runs (s.run fuel) :=
  ⟨fuel, rfl, sound, fun _ => (tick_eq_self_iff _).mpr (Machine.tick_of_halted _ _ h)⟩

/-- A run of a mapped body ends where its machine settles, with the machine's error. -/
theorem Prepared.runs_iff {limit : Int} {s : Session} (h : s.Prepared limit)
    (mapped : s.mapped = true) (outcome : Option SessionError × Session)
    : s.Runs outcome
      ↔ ∃ last feed, s.machine.Settles Console.session s.feed last feed
        ∧ outcome
          = (last.error?.map .failed, { s with machine := last, feed, mapped := false }) := by
  constructor
  · rintro ⟨fuel, rfl, sound, rest⟩
    have calm : (s.machine.drive Console.session fuel s.feed).1 ≠ .crash := by
      intro crash
      simp [run, mapped, crash] at sound
    simp only [run, mapped, if_true, if_neg calm, forall_const, tick_eq_self_iff] at rest ⊢
    have settles := Machine.settles_of_drive calm rest rfl
    exact ⟨_, _, settles, by rw [settles.halted (h.mapped mapped), if_pos rfl]⟩
  · rintro ⟨last, feed, settles, rfl⟩
    have halted := settles.halted (h.mapped mapped)
    have rest := settles.rest
    obtain ⟨fuel, reached⟩ := settles
    refine ⟨fuel, ?_, ?_, fun _ => (tick_eq_self_iff _).mpr rest⟩
    · simp [run, mapped, reached, halted]
    · cases last.error? <;> simp

/-- A run never ends while the machine is running. -/
theorem Prepared.not_stopped {limit : Int} {s : Session} (h : s.Prepared limit)
    {outcome : Option SessionError × Session} (runs : s.Runs outcome) (core : Bytes)
    : outcome.1 ≠ some (.stopped core) := by
  by_cases mapped : s.mapped = true
  · obtain ⟨last, feed, -, rfl⟩ := (h.runs_iff mapped outcome).mp runs
    cases last.error? <;> simp
  · obtain ⟨fuel, rfl, -⟩ := runs
    simp [run, mapped]

/-- Without a body that was mapped, a run does nothing. -/
theorem run_of_not_mapped {s : Session} (unmapped : s.mapped = false) (fuel : Nat)
    : s.run fuel = (some .noProgram, s) := by
  simp [run, unmapped]

/-- Only mapping a body makes a session run again. -/
theorem after_not_mapped {s : Session} (unmapped : s.mapped = false) {calls : List Call}
    (others : ∀ body, .map body ∉ calls)
    : (s.after calls).mapped = false := by
  induction calls generalizing s with
  | nil => exact unmapped
  | cons call rest ih =>
      simp only [List.mem_cons, not_or] at others
      refine ih ?_ fun body => (others body).2
      cases call with
      | feedIn data | tick | readKey intercept | write unit => exact unmapped
      | map body => exact absurd rfl (others body).1
      | run fuel => rw [make, run_of_not_mapped unmapped]; exact unmapped

theorem after_ticks (count : Nat) (s : Session)
    : s.after (List.replicate count .tick)
      = { s with
          machine := (s.machine.ticks Console.session count s.feed).1
          feed := (s.machine.ticks Console.session count s.feed).2 } := by
  induction count generalizing s with
  | zero => rfl
  | succ count ih => exact ih s.tick.2

/-- Mapping leaves nothing of what the machine did before. -/
theorem Prepared.map_machine {limit : Int} {s : Session} (h : s.Prepared limit) (body : Body)
    : s.machine.map body = (Machine.new limit).map body := by
  simp only [Machine.map, h.limit]

/-- Sessions are isolated. A run never ends while the machine is running; and whatever was done in
a session, a body that is mapped, ticked any number of times and run comes to the error and the
machine that it comes to in a new session on the input not read yet. It leaves the same input, its
output is behind the earlier one, and nothing runs after it until another body is mapped.
-/
theorem Reachable.isolated {limit : Int} {s : Session} (reachable : s.Reachable limit)
    : (∀ outcome core, s.Runs outcome → outcome.1 ≠ some (.stopped core))
      ∧ ∀ (name : Bytes) (body : Body) (count : Nat) (error? : Option SessionError)
          (alone : Session),
        (((new name limit).feedIn s.feed.input).map body).Runs (error?, alone)
        → ∃ last : Session,
          (∀ outcome, ((s.map body).after (List.replicate count .tick)).Runs outcome
            ↔ outcome = (error?, last))
          ∧ last.machine = alone.machine
          ∧ last.feed.input = alone.feed.input
          ∧ last.collect = s.collect ++ alone.collect
          ∧ ∀ calls, (∀ other, .map other ∉ calls)
            → ∀ fuel, (last.after calls).run fuel = (some .noProgram, last.after calls) := by
  have prepared := reachable.prepared
  refine ⟨fun outcome core runs => prepared.not_stopped runs core, ?_⟩
  intro name body count error? alone runs
  have fresh : (((new name limit).feedIn s.feed.input).map body).Prepared limit :=
    ⟨rfl, fun _ => nofun⟩
  obtain ⟨machine, feed, settles, same⟩ := (fresh.runs_iff rfl _).mp runs
  obtain ⟨rfl, rfl⟩ := Prod.mk.inj same
  -- the machine starts as in the new session, with the earlier output in its feed
  have settled
      : (s.map body).machine.Settles Console.session s.feed machine
          (feed.behind s.feed.output) := by
    have shown := settles.rename (Console.shows_behind s.feed.output)
    simpa [Machine.rename_id, map, feedIn, new, Feed.behind, prepared.map_machine body] using shown
  have ready := (prepared.make (.map body)).after (List.replicate count .tick)
  rw [show s.make (.map body) = s.map body from rfl, after_ticks] at ready
  refine ⟨{ s with machine, feed := feed.behind s.feed.output, mapped := false }, ?_, rfl, rfl,
    ?_, ?_⟩
  · intro outcome
    rw [after_ticks, ready.runs_iff rfl]
    constructor
    · rintro ⟨last, rest, again, rfl⟩
      cases (settled.ticks count).unique again
      rfl
    · rintro rfl
      exact ⟨machine, _, settled.ticks count, rfl⟩
  · simp [collect, Feed.behind]
  · intro calls others fuel
    exact run_of_not_mapped (after_not_mapped rfl others) fuel

/-- A body that echoes a key, mapped after it ran once and was left halfway. -/
theorem Reachable.isolated_echo
    : let body : Body :=
        { locals := [.keyInfo]
          code := #[⟨.ldcI4Zero, .none⟩, ⟨.dup, .none⟩, ⟨.call, .method .consoleReadKey⟩,
            ⟨.stloc0, .none⟩, ⟨.ret, .none⟩] }
      let s := (new (text "Driver") 9).after
        [.feedIn (text "abc"), .map body, .run 9, .write 33, .map body, .tick, .tick, .tick]
      let fresh := ((new (text "Other") 9).feedIn s.feed.input).map body
      s.collect = text "a!b"
      ∧ (fresh.run 9).1 = none
      ∧ ∃ last, ((s.map body).after (List.replicate 2 .tick)).Runs (none, last)
        ∧ last.collect = text "a!bc" := by
  intro body s fresh
  have reachable : s.Reachable 9 := ⟨text "Driver", _, rfl⟩
  have ended : (fresh.run 9).1 = none := by decide
  have printed : (fresh.run 9).2.collect = text "c" := by decide
  have runs : fresh.Runs (fresh.run 9) := runs_of_halted (by decide) (by simp [ended])
  refine ⟨by decide, ended, ?_⟩
  generalize fresh.run 9 = outcome at ended printed runs
  obtain ⟨error?, alone⟩ := outcome
  obtain rfl : error? = none := ended
  obtain ⟨last, outcomes, -, -, collected, -⟩ := reachable.isolated.2 _ body 2 none alone runs
  refine ⟨last, (outcomes _).mpr rfl, ?_⟩
  rw [collected, printed]
  decide

end Session
end TapeIL
