import TapeIL.CommandLine.Action

/-! Actions as functions from world to outcome. Every operation gets one equation, so that later
proofs neither open the monad nor the scripts below it. Most actions only read the world, or are at
least quiet: all that they do to it is to report.
-/

namespace TapeIL

variable {α β : Type}

/-- A script that goes on behind another one starts in the world that the first one leaves. -/
theorem Script.run_bind (fuel : Nat) (s : Script α) (f : α → Script β) (w : World)
    : (s.bind f).run fuel w = (f (s.run fuel w).1).run fuel (s.run fuel w).2 := by
  induction s generalizing w with
  | done result => rfl
  | stat path next ih => exact ih _ w
  | read path next ih => exact ih _ w
  | write path contents next ih =>
      rw [bind, run, run]
      split
      · exact ih _ _
      · exact ih _ w
  | print out next ih => exact ih _
  | report out next ih => exact ih _
  | execute execution next ih => exact ih _ _

namespace CommandLine.Action

/-- The outcome of an action and the world it leaves. -/
def on (fuel : Nat) (x : Action α) (w : World) : Except Error α × World :=
  Script.run fuel (ExceptT.run x) w

section Equations

variable (fuel : Nat) (w : World)

@[simp] theorem on_pure (a : α) : (pure a : Action α).on fuel w = (.ok a, w) :=
  rfl

@[simp] theorem on_throw (e : Error) : (throw e : Action α).on fuel w = (.error e, w) :=
  rfl

theorem on_bind (x : Action α) (k : α → Action β)
    : (x >>= k).on fuel w
      = match x.on fuel w with
        | (.ok a, next) => (k a).on fuel next
        | (.error e, next) => (.error e, next) := by
  change Script.run fuel (Script.bind (ExceptT.run x) (ExceptT.bindCont k)) w = _
  rw [Script.run_bind, on]
  rcases Script.run fuel (ExceptT.run x) w with ⟨_ | _, next⟩ <;> rfl

@[simp] theorem on_ofExcept {ε : Type} (wrap : ε → Error) (result : Except ε α)
    : (ofExcept wrap result).on fuel w = (result.mapError wrap, w) :=
  rfl

@[simp] theorem on_read (path : Bytes)
    : (read path).on fuel w = ((w.files.read path).mapError .file, w) :=
  rfl

@[simp] theorem on_report (out : Bytes)
    : (report out).on fuel w = (.ok (), { w with stderr := w.stderr ++ out }) :=
  rfl

@[simp] theorem on_execute (e : Execution)
    : (execute e).on fuel w = (.ok (w.execute fuel e).1, (w.execute fuel e).2) :=
  rfl

/-- A write that fails leaves the files as they are. -/
theorem on_write (path contents : Bytes) (wrap : FileFault → Error)
    : (write path contents wrap).on fuel w
      = match w.files.write path contents with
        | .ok files => (.ok (), { w with files })
        | .error fault => (.error (wrap fault), w) := by
  change Script.run fuel (.write path contents _) w = _
  rw [Script.run]
  cases w.files.write path contents <;> rfl

end Equations

section Sequence

variable {fuel : Nat} {w next : World} {x : Action α} {k : α → Action β}

theorem on_bind_ok {a : α} (h : x.on fuel w = (.ok a, next))
    : (x >>= k).on fuel w = (k a).on fuel next := by
  rw [on_bind, h]

/-- What fails in a sequence is its first action, or one behind it. -/
theorem on_bind_error {e : Error} (h : (x >>= k).on fuel w = (.error e, next))
    : x.on fuel w = (.error e, next)
      ∨ ∃ a middle, x.on fuel w = (.ok a, middle) ∧ (k a).on fuel middle = (.error e, next) := by
  rw [on_bind] at h
  rcases hx : x.on fuel w with ⟨fault | a, middle⟩ <;> rw [hx] at h
  · cases h
    exact .inl rfl
  · exact .inr ⟨a, middle, rfl, h⟩

end Sequence

------------------------------------------------------------------------------------------
-- actions that only read
------------------------------------------------------------------------------------------

/-- The action leaves the world as it is. -/
def Reads (x : Action α) : Prop :=
  ∀ fuel w, (x.on fuel w).2 = w

section Rules

theorem reads_pure (a : α) : Reads (pure a) :=
  fun _ _ => rfl

theorem reads_throw (e : Error) : Reads (throw e : Action α) :=
  fun _ _ => rfl

theorem reads_ofExcept {ε : Type} (wrap : ε → Error) (result : Except ε α)
    : Reads (ofExcept wrap result) :=
  fun _ _ => rfl

theorem reads_stat (path : Bytes) : Reads (stat path) :=
  fun _ _ => rfl

theorem reads_read (path : Bytes) : Reads (read path) :=
  fun _ _ => rfl

variable {x : Action α} {k : α → Action β}

theorem Reads.bind (h : Reads x) (next : ∀ a, Reads (k a)) : Reads (x >>= k) := by
  intro fuel w
  have first := h fuel w
  rw [on_bind]
  rcases hx : x.on fuel w with ⟨e | a, middle⟩ <;> rw [hx] at first
  · exact first
  · obtain rfl : middle = w := first
    exact next a fuel middle

/-- What fails in a sequence that starts by reading: either nothing has happened to the world yet,
or something behind the first action fails.
-/
theorem Reads.bind_error (h : Reads x) {fuel : Nat} {w next : World} {e : Error}
    (failed : (x >>= k).on fuel w = (.error e, next))
    : next = w ∨ ∃ a, x.on fuel w = (.ok a, w) ∧ (k a).on fuel w = (.error e, next) := by
  have first := h fuel w
  rcases on_bind_error failed with stop | ⟨a, middle, ran, rest⟩
  · rw [stop] at first
    exact .inl first
  · rw [ran] at first
    obtain rfl : middle = w := first
    exact .inr ⟨a, ran, rest⟩

end Rules

section Commands

theorem reads_checkInput (path : Bytes) : Reads (checkInput path) := by
  refine (reads_stat path).bind fun answer => ?_
  rcases answer with fault | (_ | _)
  · dsimp only
    split
    · exact reads_throw _
    · exact reads_throw _
  · exact reads_pure ()
  · exact reads_throw _

theorem reads_checkOutput (path : Bytes) (taken : Bytes → Error)
    : Reads (checkOutput path taken) := by
  refine (reads_stat path).bind fun answer => ?_
  cases answer with
  | ok kind => exact reads_throw _
  | error fault =>
      dsimp only
      split
      · exact reads_pure ()
      · exact reads_throw _

theorem reads_loadEntry (path : Bytes) : Reads (loadEntry path) := by
  refine (reads_read path).bind fun bytes => (reads_ofExcept _ _).bind fun m => ?_
  split
  · exact reads_pure _
  · exact reads_throw _

theorem reads_loadBody (path : Bytes) : Reads (loadBody path) := by
  unfold loadBody
  split
  · exact (reads_read path).bind fun source => (reads_ofExcept _ _).bind fun _ => reads_pure _
  split
  · exact (reads_loadEntry path).bind fun _ => reads_pure _
  · exact reads_throw _

/-- Arguments that can be parsed are parsed without a report. -/
theorem arguments?_of_parse {σ : Type} {form : Form σ} {start : σ} {arguments : List Bytes}
    {fuel : Nat} {w next : World} {result : σ × Bytes}
    (parsed : (form.parse start arguments).on fuel w = (.ok result, next))
    : form.arguments? start arguments = .ok result ∧ next = w := by
  unfold Form.parse at parsed
  split at parsed
  next found =>
    cases parsed
    exact ⟨found, rfl⟩
  next => cases parsed

end Commands

------------------------------------------------------------------------------------------
-- quiet actions
------------------------------------------------------------------------------------------

/-- The action changes nothing but what was reported. -/
def Quiet (x : Action α) : Prop :=
  ∀ fuel w, ∃ stderr, (x.on fuel w).2 = { w with stderr }

theorem Reads.quiet {x : Action α} (h : Reads x) : Quiet x :=
  fun fuel w => ⟨w.stderr, h fuel w⟩

theorem quiet_report (out : Bytes) : Quiet (report out) :=
  fun _ w => ⟨w.stderr ++ out, rfl⟩

theorem Quiet.bind {x : Action α} {k : α → Action β} (h : Quiet x) (next : ∀ a, Quiet (k a))
    : Quiet (x >>= k) := by
  intro fuel w
  obtain ⟨stderr, first⟩ := h fuel w
  rw [on_bind]
  rcases hx : x.on fuel w with ⟨e | a, middle⟩ <;> rw [hx] at first
  · exact ⟨stderr, first⟩
  · obtain rfl : middle = { w with stderr } := first
    exact next a fuel _

theorem quiet_parse {σ : Type} (form : Form σ) (start : σ) (arguments : List Bytes)
    : Quiet (form.parse start arguments) := by
  unfold Form.parse
  split
  · exact (reads_pure _).quiet
  · exact (quiet_report _).bind fun _ => (reads_throw _).quiet

/-- Loading a program reads files, and may log what it compiled. -/
theorem quiet_loadProgram (path : Bytes) (trace : Bool) : Quiet (loadProgram path trace) := by
  unfold loadProgram
  split
  · refine (reads_read path).quiet.bind fun source =>
      (reads_ofExcept _ _).quiet.bind fun body => ?_
    dsimp only
    split
    · split
      · exact (quiet_report _).bind fun _ => (reads_pure body).quiet
      · exact (reads_pure body).quiet
    · exact (reads_pure body).quiet
  · exact (reads_loadBody path).quiet

end CommandLine.Action
end TapeIL
