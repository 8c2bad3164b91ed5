import TapeIL.CommandLine.Basic
import TapeIL.Proofs.CommandLine.Compile
import TapeIL.Proofs.FileSystem

/-! Commands that may not overwrite their outputs. They look for every output before the first one
is written and stop if one is there, so all that they do to the files is to add some.
-/

namespace TapeIL.CommandLine

section Flags

variable {σ : Type} {form : Form σ} {settings s : σ} {flag : σ → Bool} {arguments : List Bytes}
  {input : Bytes}

/-- Whether arguments set a flag. Arguments that cannot be parsed set none. -/
def Form.sets (form : Form σ) (settings : σ) (flag : σ → Bool) (arguments : List Bytes) : Bool :=
  match form.arguments? settings arguments with
  | .ok (s, _) => flag s
  | .error _ => false

theorem Form.flag_of_unset (unset : form.sets settings flag arguments = false)
    (given : form.arguments? settings arguments = .ok (s, input))
    : flag s = false := by
  rwa [Form.sets, given] at unset

end Flags

namespace Action

variable {α β : Type} {fuel : Nat} {w after : World} {start : FileSystem} {path : Bytes}

------------------------------------------------------------------------------------------
-- actions that add files
------------------------------------------------------------------------------------------

/-- The action keeps what there was at first, even where files were added since then. -/
def Adds (start : FileSystem) (x : Action α) : Prop :=
  ∀ fuel w, start.Extends w.files → start.Extends (x.on fuel w).2.files

section Rules

variable {x : Action α} {k : α → Action β}

theorem Quiet.adds (h : Quiet x) : Adds start x := by
  intro fuel w grown
  obtain ⟨stderr, same⟩ := h fuel w
  rw [same]
  exact grown

theorem adds_print (out : Bytes) : Adds start (print out) :=
  fun _ _ grown => grown

/-- An output may be written again and again, as long as it was not there at first. -/
theorem adds_write (free : start.Free path) (contents : Bytes) (wrap : FileFault → Error)
    : Adds start (write path contents wrap) := by
  intro fuel w grown
  rw [on_write]
  split
  next files written => exact grown.write free written
  next => exact grown

theorem Adds.bind (h : Adds start x) (next : ∀ a, Adds start (k a)) : Adds start (x >>= k) := by
  intro fuel w grown
  have first := h fuel w grown
  rw [on_bind]
  rcases ran : x.on fuel w with ⟨e | a, middle⟩ <;> rw [ran] at first
  · exact first
  · exact next a fuel middle first

theorem Adds.extends (h : Adds w.files x) : w.files.Extends (x.on fuel w).2.files :=
  h fuel w (.refl w.files)

/-- Behind an action that only reads, the files are still those from before it. -/
theorem Reads.bind_extends (h : Reads x)
    (next : ∀ a, x.on fuel w = (.ok a, w) → w.files.Extends ((k a).on fuel w).2.files)
    : w.files.Extends ((x >>= k).on fuel w).2.files := by
  have first := h fuel w
  rw [on_bind]
  rcases ran : x.on fuel w with ⟨e | a, middle⟩ <;> rw [ran] at first
  · rw [show middle = w from first]
    exact .refl w.files
  · obtain rfl : middle = w := first
    exact next a ran

/-- Arguments that cannot be parsed end a command before it has done anything. -/
theorem parse_bind_extends {σ : Type} {form : Form σ} {settings : σ} {arguments : List Bytes}
    {k : σ × Bytes → Action β}
    (next : ∀ s input, form.arguments? settings arguments = .ok (s, input)
      → w.files.Extends ((k (s, input)).on fuel w).2.files)
    : w.files.Extends ((form.parse settings arguments >>= k).on fuel w).2.files := by
  cases given : form.arguments? settings arguments with
  | ok result =>
      rw [Form.parse, given]
      exact next result.1 result.2 given
  | error message? =>
      rw [Form.parse, given]
      exact .refl w.files

end Rules

------------------------------------------------------------------------------------------
-- outputs that are not there
------------------------------------------------------------------------------------------

/-- An output that passes the check is not there. -/
theorem free_of_checkOutput {taken : Bytes → Error}
    (passed : (checkOutput path taken).on fuel w = (.ok (), after))
    : w.files.Free path := by
  have asked : (stat path).on fuel w = (.ok (w.files.stat path), w) := rfl
  rw [checkOutput, on_bind_ok asked, FileSystem.stat] at passed
  cases found : w.files.find path with
  | ok node =>
      rw [found] at passed
      cases passed
  | error cause =>
      rw [found] at passed
      by_cases missing : cause = .notFound
      · rw [FileSystem.Free, found, missing]
      · simp only [missing, if_false] at passed
        cases passed

/-- What a sequence gives behind an action that only reads. -/
theorem Reads.bind_ok {x : Action α} {k : α → Action β} (h : Reads x) {b : β}
    (passed : (x >>= k).on fuel w = (.ok b, after))
    : ∃ a, x.on fuel w = (.ok a, w) ∧ (k a).on fuel w = (.ok b, after) := by
  have first := h fuel w
  rw [on_bind] at passed
  rcases ran : x.on fuel w with ⟨e | a, middle⟩ <;> rw [ran] at first passed
  · cases passed
  · obtain rfl : middle = w := first
    exact ⟨a, rfl, passed⟩

/-- Every file that a compilation writes under the given settings was not there at first. -/
structure Unwritten (start : FileSystem) (s : CompileSettings) (input : Bytes) : Prop where
  module : start.Free (s.modulePath input)
  config : s.runtimeConfig = true → start.Free (s.configPath input)
  listing : s.listing = true → start.Free (s.listingPath input)

theorem unwritten_of_checkOutputs {s : CompileSettings} {input : Bytes}
    (passed : (checkOutputs s input).on fuel w = (.ok (), after))
    : Unwritten w.files s input := by
  have listing
      (passed : (if s.listing then checkOutput (s.listingPath input) .outputExists
          else pure ()).on fuel w = (.ok (), after))
      (asked : s.listing = true)
      : w.files.Free (s.listingPath input) := by
    rw [if_pos asked] at passed
    exact free_of_checkOutput passed
  obtain ⟨_, module, passed⟩ := (reads_checkOutput _ _).bind_ok passed
  dsimp only at passed
  split at passed
  next asked =>
    obtain ⟨_, config, passed⟩ := (reads_checkOutput _ _).bind_ok passed
    exact ⟨free_of_checkOutput module, fun _ => free_of_checkOutput config, listing passed⟩
  next unasked =>
    exact ⟨free_of_checkOutput module, fun asked => absurd asked unasked, listing passed⟩

theorem adds_wrote (what path : Bytes) (more : List (Bytes × Log.Value))
    : Adds start (wrote what path more) :=
  (quiet_report _).adds

theorem adds_save (free : start.Free path) (m : Module) : Adds start (save path m) :=
  (adds_write free _ _).bind fun _ =>
    (reads_ofExcept _ _).quiet.adds.bind fun _ => adds_write free _ _

theorem adds_listing {s : CompileSettings} {input : Bytes}
    (unwritten : Unwritten start s input) (m : Module) (body : Body)
    : Adds start (if s.listing then
        match m.entryMethod? with
        | none => throw .noEntry
        | some (name, _) => do
            write (s.listingPath input) (Listing.ofBody name body).toYaml .file
            wrote (text "listing") (s.listingPath input) []
      else pure ()) := by
  split
  next asked =>
    split
    · exact (reads_throw _).quiet.adds
    · exact (adds_write (unwritten.listing asked) _ _).bind fun _ => adds_wrote _ _ _
  next => exact (reads_pure ()).quiet.adds

theorem adds_writeOutputs {s : CompileSettings} {input : Bytes}
    (unwritten : Unwritten start s input) (m : Module) (body : Body)
    : Adds start (writeOutputs s input m body) := by
  refine (adds_save unwritten.module m).bind fun _ => (adds_wrote _ _ _).bind fun _ => ?_
  dsimp only
  split
  next asked =>
    exact (adds_write (unwritten.config asked) _ _).bind fun _ =>
      (adds_wrote _ _ _).bind fun _ => adds_listing unwritten m body
  next => exact adds_listing unwritten m body

------------------------------------------------------------------------------------------
-- commands
------------------------------------------------------------------------------------------

theorem compile_extends {arguments : List Bytes}
    (unset : CompileSettings.form.sets {} CompileSettings.overwrite arguments = false)
    : w.files.Extends ((compile arguments).on fuel w).2.files := by
  refine parse_bind_extends fun s input given => ?_
  refine (reads_checkInput input).bind_extends fun _ _ => ?_
  refine (reads_compileOptions s input).bind_extends fun o _ => ?_
  simp only [Form.flag_of_unset unset given, Bool.not_false, if_true]
  refine (reads_checkOutputs s input).bind_extends fun _ passed => ?_
  have unwritten := unwritten_of_checkOutputs passed
  refine (reads_read input).bind_extends fun source _ => ?_
  refine (reads_ofExcept _ _).bind_extends fun body _ => ?_
  refine (reads_ofExcept _ _).bind_extends fun m _ => ?_
  exact (adds_writeOutputs unwritten m body).extends

theorem decompile_extends {arguments : List Bytes}
    (unset : OutputSettings.decompileForm.sets {} OutputSettings.overwrite arguments = false)
    : w.files.Extends ((decompile arguments).on fuel w).2.files := by
  refine parse_bind_extends fun s input given => ?_
  refine (reads_checkInput input).bind_extends fun _ _ => ?_
  simp only [Form.flag_of_unset unset given, Bool.not_false, if_true]
  refine (reads_checkOutput _ _).bind_extends fun _ passed => ?_
  have free := free_of_checkOutput passed
  refine (reads_loadBody input).bind_extends fun body _ => ?_
  refine (reads_ofExcept _ _).bind_extends fun d _ => ?_
  exact ((adds_write free _ _).bind fun _ => adds_wrote _ _ _).extends

/-- A listing without an output of its own is printed. -/
theorem disassemble_extends {arguments : List Bytes}
    (unset : OutputSettings.disassembleForm.sets {} OutputSettings.overwrite arguments = false)
    : w.files.Extends ((disassemble arguments).on fuel w).2.files := by
  refine parse_bind_extends fun s input given => ?_
  refine (reads_checkInput input).bind_extends fun _ _ => ?_
  cases printed : s.output.isEmpty with
  | true =>
      simp only [Bool.not_true, Bool.false_and, Bool.false_eq_true, if_false, if_true]
      refine (reads_loadEntry input).bind_extends fun (name, body) _ => ?_
      exact (adds_print _).extends
  | false =>
      simp only [Form.flag_of_unset unset given, Bool.not_false, Bool.and_self, if_true,
        Bool.false_eq_true, if_false]
      refine (reads_checkOutput _ _).bind_extends fun _ passed => ?_
      refine (reads_loadEntry input).bind_extends fun (name, body) _ => ?_
      exact (adds_write (free_of_checkOutput passed) _ _).extends

end Action

------------------------------------------------------------------------------------------
-- the command line
------------------------------------------------------------------------------------------

/-- Whether arguments of a command set the flag by which it may overwrite its outputs. A command
without such a flag sets nothing.
-/
def setsOverwrite (command : Bytes) (arguments : List Bytes) : Bool :=
  if command = text "compile" then
    CompileSettings.form.sets {} CompileSettings.overwrite arguments
  else if command = text "decompile" then
    OutputSettings.decompileForm.sets {} OutputSettings.overwrite arguments
  else if command = text "disasm" then
    OutputSettings.disassembleForm.sets {} OutputSettings.overwrite arguments
  else false

/-- Reporting how a command has ended changes no file. -/
theorem Entry.files_run (e : Entry) (arguments : List Bytes) (fuel : Nat) (w : World)
    : ((e.run arguments).run fuel w).2.files = ((e.action arguments).on fuel w).2.files := by
  change ((Script.bind (ExceptT.run (e.action arguments)) _).run fuel w).2.files = _
  rw [Script.run_bind, Action.on]
  rcases Script.run fuel (ExceptT.run (e.action arguments)) w with ⟨error | _, next⟩
  · cases error <;> rfl
  · rfl

/-- The commands that write files keep every file that was there, unless their arguments set the
flag to overwrite: at its place and under each of its paths, whether the command succeeds or fails.
-/
theorem keeps_files {command : Bytes} {arguments : List Bytes}
    (writer : command ∈ [text "compile", text "decompile", text "disasm"])
    (unset : setsOverwrite command arguments = false) (fuel : Nat) (w : World)
    : let after := ((script fuel (command :: arguments)).run fuel w).2.files
      (∀ place contents, w.files.node? place = some (.file contents)
        → after.node? place = some (.file contents))
      ∧ ∀ path contents, w.files.read path = .ok contents → after.read path = .ok contents := by
  have extended
      : w.files.Extends ((script fuel (command :: arguments)).run fuel w).2.files := by
    simp only [List.mem_cons, List.not_mem_nil, or_false] at writer
    rcases writer with rfl | rfl | rfl
    · change w.files.Extends ((Entry.run ⟨_, _, Action.compile⟩ arguments).run fuel w).2.files
      rw [Entry.files_run]
      exact Action.compile_extends unset
    · change w.files.Extends ((Entry.run ⟨_, _, Action.decompile⟩ arguments).run fuel w).2.files
      rw [Entry.files_run]
      exact Action.decompile_extends unset
    · change w.files.Extends ((Entry.run ⟨_, _, Action.disassemble⟩ arguments).run fuel w).2.files
      rw [Entry.files_run]
      exact Action.disassemble_extends unset
  exact ⟨fun _ _ => extended.keeps, fun _ _ => extended.read⟩

/-- A listing that is asked for in front of the input, where notes have its name; the flag to
overwrite is given, but not set.
-/
theorem keeps_files_named_as_listing
    : let arguments := [text "-l", text "-o=b.dll", text "a.bf", text "-w=false"]
      let w : World :=
        { files := (FileSystem.empty.addFile (text "a.bf") (text "+")).addFile (text "b.il.yaml")
            (text "notes") }
      let after := ((script 0 (text "compile" :: arguments)).run 0 w).2.files
      setsOverwrite (text "compile") arguments = false
      ∧ after.read (text "b.il.yaml") = .ok (text "notes") := by
  intro arguments w after
  have unset : setsOverwrite (text "compile") arguments = false := by decide
  have kept := keeps_files (by simp) unset 0 w
  exact ⟨unset, kept.2 _ _ rfl⟩

end TapeIL.CommandLine
