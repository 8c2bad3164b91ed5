import TapeIL.Proofs.Machine.Run

/-! A limit cuts a run off and changes nothing else. Tick by tick a limited machine is the unlimited
one until that has executed as many instructions as the limit allows; if the unlimited machine is
still running then, the next tick stops the limited one as it is.
-/

namespace TapeIL.Machine

variable {σ : Type}

/-- The machine with a limit of `n` instructions. -/
def capped (n : Nat) (m : Machine) : Machine :=
  { m with limit := some n }

/-- The machine has stopped by itself and within `n` instructions: a `ret` or a fault may be the
last of them, but the end of the body has to come before it.
-/
def StopsWithin (n : Nat) (m : Machine) : Prop :=
  match m.status with
  | .returned => m.steps ≤ n
  | .failed (.instruction _ _ _) => m.steps ≤ n
  | .failed .pastEnd => m.steps < n
  | _ => False

section Stops

variable {n : Nat} {m : Machine}

theorem StopsWithin.mono {k : Nat} (h : m.StopsWithin n) (le : n ≤ k) : m.StopsWithin k := by
  unfold StopsWithin at h ⊢
  split at h
  · exact h.trans le
  · exact h.trans le
  · exact h.trans_le le
  · exact h.elim

theorem StopsWithin.halted (h : m.StopsWithin n) : m.halted = true := by
  unfold StopsWithin at h
  unfold Machine.halted
  split at h
  next status => rw [status]
  next status => rw [status]
  next status => rw [status]
  next => exact h.elim

/-- A machine that is running has not stopped. -/
theorem not_stopsWithin (running : m.status = .running) : ¬m.StopsWithin n := by
  intro h
  simp [StopsWithin, running] at h

/-- A machine that has stopped stays as it is. -/
theorem StopsWithin.ticks (h : m.StopsWithin n) (c : Console σ) (count : Nat) (s : σ)
    : m.ticks c count s = (m, s) :=
  ticks_of_rest (tick_of_halted c s h.halted) count

end Stops

------------------------------------------------------------------------------------------
-- unlimited machines
------------------------------------------------------------------------------------------

section Unlimited

variable {m : Machine}

/-- The machine has no limit, and `count` ticks ago it was running with `before` instructions behind
it: it has executed one with every tick, or has stopped on the way.
-/
def Paced (before count : Nat) (m : Machine) : Prop :=
  m.limit = none
  ∧ (m.status = .running ∧ m.steps = before + count
    ∨ m.StopsWithin (before + count) ∧ ¬m.StopsWithin before)

theorem paced_execute (c : Console σ) (s : σ) (i : Instruction) (unlimited : m.limit = none)
    : (m.execute c s i).1.Paced m.steps 1 := by
  rcases outcome : (Exec.instruction c m.body m.pc i).on (m.frame s) with ⟨fault | next, f⟩
  · rw [execute_error outcome]
    exact ⟨unlimited, .inr ⟨Nat.le_refl (m.steps + 1), Nat.not_succ_le_self m.steps⟩⟩
  · rw [execute_ok outcome]
    refine ⟨unlimited, ?_⟩
    cases next.returned with
    | true => exact .inr ⟨Nat.le_refl (m.steps + 1), Nat.not_succ_le_self m.steps⟩
    | false => exact .inl ⟨rfl, rfl⟩

/-- A crash counts its instruction, and a machine that goes on after it counts from there. -/
theorem paced_breakOff (c : Console σ) (s : σ) (i : Instruction) (unlimited : m.limit = none)
    : (m.execute c s i).1.breakOff.Paced m.steps 1 := by
  rcases outcome : (Exec.instruction c m.body m.pc i).on (m.frame s) with ⟨fault | next, f⟩
  · rw [execute_error outcome]
    exact ⟨unlimited, .inl ⟨rfl, rfl⟩⟩
  · have paced := paced_execute c s i unlimited
    rw [execute_ok outcome] at paced ⊢
    cases returned : next.returned <;> rw [returned] at paced <;> exact paced

/-- A tick of a running machine executes one instruction, or finds none. -/
theorem paced_tick (c : Console σ) (s : σ) (running : m.status = .running)
    (unlimited : m.limit = none)
    : (m.tick c s).2.1.Paced m.steps 1 := by
  rcases m.tick_cases c s with ⟨still, -⟩ | ⟨-, limit, -⟩ | ⟨-, -, -, h⟩ | ⟨i, -, -, -, -, h⟩
    | ⟨i, -, -, -, -, h⟩
  · contradiction
  · simp [atLimit, unlimited] at limit
  · rw [h]
    exact ⟨unlimited, .inr ⟨Nat.lt_succ_self m.steps, Nat.lt_irrefl m.steps⟩⟩
  · rw [h]
    exact paced_execute c s i unlimited
  · rw [h]
    exact paced_breakOff c s i unlimited

/-- As long as it is running, a machine executes one instruction a tick, by induction on ticks. -/
theorem paced_ticks (c : Console σ) (count : Nat) (s : σ) (running : m.status = .running)
    (unlimited : m.limit = none)
    : (m.ticks c count s).1.Paced m.steps count := by
  induction count generalizing m s with
  | zero => exact ⟨unlimited, .inl ⟨running, rfl⟩⟩
  | succ count ih =>
      rw [ticks_succ]
      obtain ⟨free, ⟨going, steps⟩ | ⟨stopped, late⟩⟩ := paced_tick c s running unlimited
      · obtain ⟨free, rest⟩ := ih (m.tick c s).2.2 going free
        rw [steps, Nat.add_right_comm, Nat.add_assoc] at rest
        refine ⟨free, rest.imp_right fun ⟨stopped, late⟩ => ⟨stopped, fun early => ?_⟩⟩
        exact late (early.mono (Nat.le_add_right m.steps 1))
      · rw [stopped.ticks]
        exact ⟨free, .inr ⟨stopped.mono (by omega), late⟩⟩

end Unlimited

------------------------------------------------------------------------------------------
-- limited machines
------------------------------------------------------------------------------------------

section Limited

variable {m : Machine} {n : Nat}

theorem execute_capped (c : Console σ) (s : σ) (i : Instruction)
    : (m.capped n).execute c s i = ((m.execute c s i).1.capped n, (m.execute c s i).2) := by
  rcases outcome : (Exec.instruction c m.body m.pc i).on (m.frame s) with ⟨fault | next, f⟩
  · rw [execute_error outcome, execute_error (m := m.capped n) outcome]
    rfl
  · rw [execute_ok outcome, execute_ok (m := m.capped n) outcome]
    rfl

theorem breakOff_capped (m : Machine) (n : Nat)
    : (m.capped n).breakOff = m.breakOff.capped n := by
  have status : (m.capped n).status = m.status := rfl
  unfold breakOff
  rw [status]
  split <;> rfl

/-- Below the limit a tick is the same as without one. -/
theorem tick_capped (c : Console σ) (s : σ) (running : m.status = .running)
    (unlimited : m.limit = none) (below : m.steps < n)
    : (m.capped n).tick c s
      = ((m.tick c s).1, (m.tick c s).2.1.capped n, (m.tick c s).2.2) := by
  have allowed : (m.capped n).atLimit = false := decide_eq_false (Nat.not_le.mpr below)
  have free : m.atLimit = false := by
    simp [atLimit, unlimited]
  have same : (m.capped n).status = .running := running
  cases here : m.body.code[m.pc]? with
  | none =>
      have there : (m.capped n).body.code[(m.capped n).pc]? = none := here
      simp [tick, running, same, allowed, free, here, there]
      rfl
  | some i =>
      have there : (m.capped n).body.code[(m.capped n).pc]? = some i := here
      cases prints : i.prints <;>
        simp [tick, running, same, allowed, free, here, there, prints, execute_capped,
          breakOff_capped]

theorem below_of_allowed (limited : m.limit = some n) (allowed : m.atLimit = false)
    : m.steps + 1 ≤ n := by
  have below : m.steps < n := by simpa [atLimit, limited] using allowed
  exact below

/-- A limited machine never executes more instructions than its limit, by induction on the ticks. -/
theorem steps_ticks_le (c : Console σ) (count : Nat) (s : σ) (limited : m.limit = some n)
    (within : m.steps ≤ n)
    : (m.ticks c count s).1.steps ≤ n := by
  induction count generalizing m s with
  | zero => exact within
  | succ count ih =>
      rw [ticks_succ]
      rcases m.tick_cases c s with ⟨-, h⟩ | ⟨-, -, h⟩ | ⟨-, -, -, h⟩ | ⟨i, -, allowed, -, -, h⟩
        | ⟨i, -, allowed, -, -, h⟩ <;> rw [h]
      · exact ih s limited within
      · exact ih s limited within
      · exact ih s limited within
      · obtain ⟨limit, -, steps⟩ := m.execute_keeps c s i
        exact ih _ (limit.trans limited) (steps.trans_le (below_of_allowed limited allowed))
      · obtain ⟨limit, -, steps⟩ := m.execute_keeps c s i
        rw [breakOff_eq]
        exact ih _ (limit.trans limited) (steps.trans_le (below_of_allowed limited allowed))

/-- Up to the limit a run is the same as without one, by induction on the ticks. -/
theorem ticks_capped (c : Console σ) (count : Nat) (s : σ) (running : m.status = .running)
    (unlimited : m.limit = none) (within : m.steps + count ≤ n)
    : (m.capped n).ticks c count s
      = ((m.ticks c count s).1.capped n, (m.ticks c count s).2) := by
  induction count generalizing m s with
  | zero => rfl
  | succ count ih =>
      have below : m.steps < n := by omega
      rw [ticks_succ, ticks_succ, tick_capped c s running unlimited below]
      obtain ⟨free, ⟨going, steps⟩ | ⟨stopped, -⟩⟩ := paced_tick c s running unlimited
      · exact ih _ going free (by omega)
      · have also : ((m.tick c s).2.1.capped n).StopsWithin (m.steps + 1) := stopped
        rw [stopped.ticks, also.ticks]

/-- At the limit the next tick stops the machine and changes nothing else. -/
theorem tick_at_limit (c : Console σ) (s : σ) (running : m.status = .running)
    (reached : m.steps = n)
    : (m.capped n).tick c s
      = (.rest, { m.capped n with status := .failed (.stepLimit n) }, s) := by
  have limit : (m.capped n).atLimit = true := by
    simp [atLimit, capped, reached]
  have same : (m.capped n).status = .running := running
  simp [tick, same, limit]
  rfl

/-- If the unlimited machine is still running at the limit, the limited one is stopped there. -/
theorem ticks_capped_of_running {c : Console σ} {count later : Nat} {s : σ}
    (running : m.status = .running) (unlimited : m.limit = none) (reached : m.steps + count = n)
    (going : (m.ticks c count s).1.status = .running) (lt : count < later)
    : (m.capped n).ticks c later s
      = ({ (m.ticks c count s).1.capped n with status := .failed (.stepLimit n) },
          (m.ticks c count s).2) := by
  obtain ⟨more, rfl⟩ := Nat.exists_eq_add_of_lt lt
  obtain ⟨-, ⟨-, steps⟩ | ⟨stopped, -⟩⟩ := paced_ticks c count s running unlimited
  · rw [Nat.add_assoc, ticks_add, ticks_capped c count s running unlimited reached.le, ticks_succ,
      tick_at_limit c _ going (steps.trans reached)]
    exact ticks_of_rest (tick_of_halted c _ rfl) more
  · exact absurd stopped (not_stopsWithin going)

/-- If the unlimited machine is running at the limit, it never stops within it. -/
theorem not_stopsWithin_of_running {c : Console σ} {count : Nat} {s : σ}
    (running : m.status = .running) (unlimited : m.limit = none) (reached : m.steps + count = n)
    (going : (m.ticks c count s).1.status = .running) (t : Nat)
    : ¬(m.ticks c t s).1.StopsWithin n := by
  rcases Nat.le_total t count with le | le
  · intro stops
    obtain ⟨more, rfl⟩ := Nat.exists_eq_add_of_le le
    rw [ticks_add, stops.ticks] at going
    exact not_stopsWithin going stops
  · obtain ⟨more, rfl⟩ := Nat.exists_eq_add_of_le le
    obtain ⟨free, ⟨-, steps⟩ | ⟨stopped, -⟩⟩ := paced_ticks c count s running unlimited
    · rw [ticks_add]
      obtain ⟨-, ⟨going, -⟩ | ⟨-, late⟩⟩ :=
        paced_ticks c more (m.ticks c count s).2 going free
      · exact not_stopsWithin going
      · rwa [steps, reached] at late
    · exact absurd stopped (not_stopsWithin going)

/-- A run stops in one state only. -/
theorem StopsWithin.unique {c : Console σ} {t u : Nat} {s : σ}
    (h : (m.ticks c t s).1.StopsWithin n) (g : (m.ticks c u s).1.StopsWithin n)
    : m.ticks c t s = m.ticks c u s := by
  rw [← Prod.eta (m.ticks c t s), ← h.ticks c u, ← ticks_add, Nat.add_comm, ticks_add, g.ticks]

/-- If the unlimited machine stops within the limit, the limited one is left as that is. -/
theorem ticks_capped_of_stops {c : Console σ} {count later : Nat} {s : σ}
    (running : m.status = .running) (unlimited : m.limit = none) (within : m.steps ≤ n)
    (stops : (m.ticks c count s).1.StopsWithin n) (le : count ≤ later)
    : (m.capped n).ticks c later s
      = ((m.ticks c count s).1.capped n, (m.ticks c count s).2) := by
  -- at the limit the unlimited machine has stopped, and in the same state as after `count` ticks
  obtain ⟨rest, reached⟩ := Nat.exists_eq_add_of_le within
  obtain ⟨-, ⟨going, -⟩ | ⟨stopped, -⟩⟩ := paced_ticks c rest s running unlimited
  · exact absurd stops (not_stopsWithin_of_running running unlimited reached.symm going count)
  · rw [← reached] at stopped
    rcases Nat.le_total later rest with early | late
    · obtain ⟨more, rfl⟩ := Nat.exists_eq_add_of_le le
      rw [ticks_capped c _ s running unlimited (by omega), ticks_add, stops.ticks]
    · obtain ⟨more, rfl⟩ := Nat.exists_eq_add_of_le late
      have also : ((m.ticks c rest s).1.capped n).StopsWithin n := stopped
      rw [ticks_add, ticks_capped c rest s running unlimited reached.ge, also.ticks,
        stopped.unique stops]

end Limited

/-- A positive limit is a cap on the machine without one. -/
theorem map_new_eq_capped (body : Body) {n : Nat} (positive : 0 < n)
    : (new n).map body = ((new 0).map body).capped n := by
  simp [new, map, capped, Nat.pos_iff_ne_zero.mp positive]

/-- A limit of `n` instructions is pure truncation, on any body and any console. For `n` ticks the
machine is as it is without the limit. If the unlimited machine stops within the limit, the limited
one stops in the same state; and if not, then with the next tick it fails for its limit, having
executed `n` instructions, and is otherwise as the unlimited machine was after those. So it never
executes more than `n` instructions, and has halted after `n + 1` ticks.
-/
theorem limit_truncates (body : Body) (c : Console σ) (s : σ) {n : Nat} (positive : 0 < n)
    : let limited (t : Nat) := ((new n).map body).ticks c t s
      let free (t : Nat) := ((new 0).map body).ticks c t s
      (∀ t ≤ n, limited t = ((free t).1.capped n, (free t).2))
      ∧ (∀ t, (free t).1.StopsWithin n
        → ∀ later ≥ t, limited later = ((free t).1.capped n, (free t).2))
      ∧ ((∀ t, ¬(free t).1.StopsWithin n)
        → (free n).1.steps = n
          ∧ ∀ later > n, limited later
            = ({ (free n).1.capped n with status := .failed (.stepLimit n) }, (free n).2))
      ∧ (∀ t, (limited t).1.steps ≤ n)
      ∧ (limited (n + 1)).1.halted = true := by
  intro limited free
  let m := (new 0).map body
  have running : m.status = .running := rfl
  have unlimited : m.limit = none := rfl
  have start (t : Nat) : m.steps + t = t := Nat.zero_add t
  have cap (t : Nat) : limited t = (m.capped n).ticks c t s := by
    rw [← map_new_eq_capped body positive]
  have cut (going : (free n).1.status = .running) (later : Nat) (lt : n < later)
      : limited later
        = ({ (free n).1.capped n with status := .failed (.stepLimit n) }, (free n).2) := by
    rw [cap]
    exact ticks_capped_of_running running unlimited (start n) going lt
  have kept (t : Nat) (stops : (free t).1.StopsWithin n) (later : Nat) (le : t ≤ later)
      : limited later = ((free t).1.capped n, (free t).2) := by
    rw [cap]
    exact ticks_capped_of_stops running unlimited (Nat.zero_le n) stops le
  -- whether the unlimited machine is running after `n` ticks decides between the two endings
  have paced : (free n).1.Paced m.steps n := paced_ticks c n s running unlimited
  rw [Paced, start] at paced
  refine ⟨?_, kept, ?_, ?_, ?_⟩
  · intro t le
    rw [cap]
    exact ticks_capped c t s running unlimited ((start t).trans_le le)
  · intro never
    obtain ⟨-, ⟨going, steps⟩ | ⟨stops, -⟩⟩ := paced
    · exact ⟨steps, cut going⟩
    · exact absurd stops (never n)
  · intro t
    rw [cap]
    exact steps_ticks_le c t s rfl (Nat.zero_le n)
  · obtain ⟨-, ⟨going, -⟩ | ⟨stops, -⟩⟩ := paced
    · rw [cut going (n + 1) (Nat.lt_succ_self n)]
      rfl
    · rw [kept n stops (n + 1) (Nat.le_succ n)]
      exact stops.halted

/-- Three instructions and the end of the body behind them: a limit of three stops the machine
before it finds the end, a limit of four does not.
-/
theorem limit_truncates_line
    : let line : Body := { code := #[⟨.nop, .none⟩, ⟨.ldcI4One, .none⟩, ⟨.dup, .none⟩] }
      let limited (n t : Nat) := ((new n).map line).ticks Console.session t {}
      let free (t : Nat) := ((new 0).map line).ticks Console.session t {}
      ((∀ t, ¬(free t).1.StopsWithin 3)
        ∧ limited 3 4
          = ({ (free 3).1.capped 3 with status := .failed (.stepLimit 3) }, (free 3).2))
      ∧ (free 4).1.StopsWithin 4
      ∧ limited 4 9 = ((free 4).1.capped 4, (free 4).2) := by
  intro line limited free
  have going : (free 3).1.status = .running := by decide
  have never : ∀ t, ¬(free t).1.StopsWithin 3 :=
    not_stopsWithin_of_running rfl rfl (by decide) going
  have stops : (free 4).1.StopsWithin 4 := by
    have status : (free 4).1.status = .failed .pastEnd := by decide
    have steps : (free 4).1.steps < 4 := by decide
    simpa [StopsWithin, status] using steps
  obtain ⟨-, -, cut, -⟩ := limit_truncates line Console.session {} (n := 3) (by decide)
  obtain ⟨-, kept, -⟩ := limit_truncates line Console.session {} (n := 4) (by decide)
  exact ⟨⟨never, (cut never).2 4 (by decide)⟩, stops, kept 4 stops 9 (by decide)⟩

end TapeIL.Machine
