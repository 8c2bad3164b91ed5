import TapeIL.CommandLine.Compile
import TapeIL.Proofs.CommandLine.Action
import TapeIL.Proofs.Module.Build

/-! Compilations that fail. Everything that can be wrong with arguments, options, profile and source
comes up before the first file is written. Only the name of the module is checked too late: if it is
too long to be encoded, then the module's file has been emptied already.
-/

namespace TapeIL.CommandLine.Action

variable {α β : Type} {fuel : Nat} {w after : World} {e : Error}

------------------------------------------------------------------------------------------
-- before the first write
------------------------------------------------------------------------------------------

theorem reads_compileOptions (s : CompileSettings) (input : Bytes)
    : Reads (compileOptions s input) := by
  unfold compileOptions
  dsimp only
  split
  · exact reads_pure _
  · exact (reads_read _).bind fun _ => (reads_ofExcept _ _).bind fun _ => reads_pure _

theorem reads_checkOutputs (s : CompileSettings) (input : Bytes)
    : Reads (checkOutputs s input) := by
  have listing
      : Reads (if s.listing then checkOutput (s.listingPath input) .outputExists else pure ()) := by
    split
    · exact reads_checkOutput _ _
    · exact reads_pure ()
  refine (reads_checkOutput _ _).bind fun _ => ?_
  dsimp only
  split
  · exact (reads_checkOutput _ _).bind fun _ => listing
  · exact listing

theorem ofExcept_ok {ε : Type} {wrap : ε → Error} {result : Except ε α} {a : α}
    (done : (ofExcept wrap result).on fuel w = (.ok a, after))
    : result = .ok a := by
  cases result with
  | ok _ => cases done; rfl
  | error _ => cases done

/-- What fails behind a check that is made only on a condition. -/
theorem Reads.unless_error {x : Action Unit} {k : Unit → Action β} (h : Reads x)
    {condition : Bool}
    (failed : (if condition = true then x >>= k else k ()).on fuel w = (.error e, after))
    : after = w ∨ (k ()).on fuel w = (.error e, after) := by
  cases condition with
  | true =>
      rcases h.bind_error failed with same | ⟨_, -, failed⟩
      · exact .inl same
      · exact .inr failed
  | false => exact .inr failed

------------------------------------------------------------------------------------------
-- writes
------------------------------------------------------------------------------------------

/-- Nothing but a file operation can fail in the action. -/
def Plain (x : Action α) : Prop :=
  ∀ fuel w e after, x.on fuel w = (.error e, after) → ∃ fault, e = .file fault

theorem plain_pure (a : α) : Plain (pure a) :=
  fun _ _ _ _ failed => nomatch failed

theorem plain_report (out : Bytes) : Plain (report out) :=
  fun _ _ _ _ failed => nomatch failed

theorem plain_write (path contents : Bytes) : Plain (write path contents .file) := by
  intro fuel w e after failed
  rw [on_write] at failed
  split at failed
  next => cases failed
  next fault _ =>
    cases failed
    exact ⟨fault, rfl⟩

theorem Plain.bind {x : Action α} {k : α → Action β} (h : Plain x) (next : ∀ a, Plain (k a))
    : Plain (x >>= k) := by
  intro fuel w e after failed
  rcases on_bind_error failed with stop | ⟨a, middle, -, rest⟩
  · exact h fuel w e after stop
  · exact next a fuel middle e after rest

/-- An error that no file operation had does not come from such an action. -/
theorem Plain.not_own {x : Action α} (h : Plain x) (own : ∀ fault, e ≠ .file fault)
    : x.on fuel w ≠ (.error e, after) := by
  intro failed
  obtain ⟨fault, rfl⟩ := h fuel w e after failed
  exact own fault rfl

/-- A file that was written without a fault. -/
theorem on_write_ok {path contents : Bytes} {wrap : FileFault → Error} {result : Unit}
    (done : (write path contents wrap).on fuel w = (.ok result, after))
    : ∃ files, w.files.write path contents = .ok files ∧ after = { w with files } := by
  rw [on_write] at done
  split at done
  next files written =>
    cases done
    exact ⟨files, written, rfl⟩
  next => cases done

/-- A module that cannot be saved, although files can be written, is one that cannot be encoded. Its
file is empty then.
-/
theorem save_failed {path : Bytes} {m : Module}
    (failed : (save path m).on fuel w = (.error e, after)) (own : ∀ fault, e ≠ .file fault)
    : ∃ cause, m.encode = .error cause ∧ e = .encode cause
      ∧ w.files.write path [] = .ok after.files := by
  rcases on_bind_error failed with stop | ⟨_, emptied, made, failed⟩
  · exact absurd stop ((plain_write path []).not_own own)
  obtain ⟨files, written, rfl⟩ := on_write_ok made
  rcases on_bind_error failed with stop | ⟨bytes, _, -, failed⟩
  · rw [on_ofExcept] at stop
    cases encoded : m.encode with
    | ok bytes => simp [encoded, Except.mapError] at stop
    | error cause =>
        rw [encoded] at stop
        cases stop
        exact ⟨cause, rfl, rfl, written⟩
  · exact absurd failed ((plain_write path bytes).not_own own)

/-- Once a module with an entry method is saved, only file operations can fail. -/
theorem writeOutputs_failed {s : CompileSettings} {input : Bytes} {m : Module} {body : Body}
    (entry : m.entryMethod?.isSome = true)
    (failed : (writeOutputs s input m body).on fuel w = (.error e, after))
    (own : ∀ fault, e ≠ .file fault)
    : (save (s.modulePath input) m).on fuel w = (.error e, after) := by
  rcases on_bind_error failed with stop | ⟨_, saved, -, failed⟩
  · exact stop
  obtain ⟨⟨name, method⟩, found⟩ := Option.isSome_iff_exists.mp entry
  have listing
      : Plain (if s.listing then do
            write (s.listingPath input) (Listing.ofBody name body).toYaml .file
            wrote (text "listing") (s.listingPath input) []
          else pure ()) := by
    split
    · exact (plain_write _ _).bind fun _ => plain_report _
    · exact plain_pure ()
  refine absurd failed (Plain.not_own ((plain_report _).bind fun _ => ?_) own)
  simp only [found]
  split
  · exact (plain_write _ _).bind fun _ => (plain_report _).bind fun _ => listing
  · exact listing

------------------------------------------------------------------------------------------
-- names
------------------------------------------------------------------------------------------

/-- A name that starts with a letter is not blank. -/
theorem trim_of_letter (rest : Bytes) : (Bytes.trim (Bytes.code 'a' :: rest)).isEmpty = false := by
  have head : Glyph.ofBytes (Bytes.code 'a' :: rest) = .char 'a' :: Glyph.ofBytes rest := by
    rw [Glyph.ofBytes]
    rfl
  have letter : ¬Glyph.isBlank (.char 'a') = true := by decide
  have kept : (Glyph.char 'a' :: Glyph.ofBytes rest).reverse.dropWhile Glyph.isBlank ≠ [] := by
    rw [Ne, List.dropWhile_eq_nil_iff]
    intro blank
    exact letter (blank (.char 'a') (by simp))
  have solid (g : Glyph) : g.bytes ≠ [] := by
    cases g with
    | char c => exact String.utf8EncodeChar_ne_nil
    | stray b => simp [Glyph.bytes]
  obtain ⟨g, mem⟩ := List.exists_mem_of_ne_nil _ kept
  rw [Bytes.trim, head, List.dropWhile_cons_of_neg letter, List.isEmpty_eq_false_iff]
  intro empty
  exact solid g (List.flatMap_eq_nil_iff.mp empty g (List.mem_reverse.mpr mem))

theorem check_of_letter (rest : Bytes)
    : ({ name := Bytes.code 'a' :: rest } : Options).check = .ok { major := 1 } := by
  have version : Version.parse (text "1.0.0") = .ok { major := 1 } := by cbv
  simp [Options.check, trim_of_letter, version, Except.mapError]

------------------------------------------------------------------------------------------
-- compilations
------------------------------------------------------------------------------------------

/-- A compilation that may overwrite its outputs, from where its source was read. -/
theorem on_compile {arguments : List Bytes} {s : CompileSettings} {input : Bytes} {o : Options}
    {source : Bytes} (given : CompileSettings.form.arguments? {} arguments = .ok (s, input))
    (overwrite : s.overwrite = true)
    (present : (checkInput input).on fuel w = (.ok (), w))
    (options : (compileOptions s input).on fuel w = (.ok o, w))
    (found : w.files.read input = .ok source)
    : (compile arguments).on fuel w
      = (do
          let body ← ofExcept .compile (compileSource source o)
          let m ← ofExcept .build (Module.build body o)
          writeOutputs s input m body).on fuel w := by
  have parsed : (CompileSettings.form.parse {} arguments).on fuel w = (.ok (s, input), w) := by
    rw [Form.parse, given]
    rfl
  have sourced : (read input).on fuel w = (.ok source, w) := by
    rw [on_read, found]
    rfl
  rw [compile, on_bind_ok parsed, on_bind_ok present, on_bind_ok options]
  simp only [overwrite, Bool.not_true, Bool.false_eq_true, if_false]
  rw [on_bind_ok sourced]

/-- A compilation that fails, and not for a fault of a file operation, leaves the files alone,
unless the name of the module is too long to be encoded. With such a name, all that has changed is
that the module's file is there and empty.
-/
theorem compile_failed {arguments : List Bytes}
    (failed : (compile arguments).on fuel w = (.error e, after))
    (own : ∀ fault, e ≠ .file fault)
    : after.files = w.files
      ∨ ∃ s input o, CompileSettings.form.arguments? {} arguments = .ok (s, input)
        ∧ (compileOptions s input).on fuel w = (.ok o, w)
        ∧ Encode.maxCount < o.name.length
        ∧ e = .encode (.longText o.name.length)
        ∧ w.files.write (s.modulePath input) [] = .ok after.files := by
  rcases on_bind_error failed with stop | ⟨⟨s, input⟩, next, parsed, rest⟩
  · obtain ⟨stderr, same⟩ := quiet_parse CompileSettings.form {} arguments fuel w
    rw [stop] at same
    exact .inl (by rw [show after = { w with stderr } from same])
  obtain ⟨given, rfl⟩ := arguments?_of_parse parsed
  rcases (reads_checkInput input).bind_error rest with rfl | ⟨_, -, rest⟩
  · exact .inl rfl
  rcases (reads_compileOptions s input).bind_error rest with rfl | ⟨o, options, rest⟩
  · exact .inl rfl
  rcases (reads_checkOutputs s input).unless_error rest with rfl | rest
  · exact .inl rfl
  rcases (reads_read input).bind_error rest with rfl | ⟨source, -, rest⟩
  · exact .inl rfl
  rcases (reads_ofExcept _ _).bind_error rest with rfl | ⟨body, compiled, rest⟩
  · exact .inl rfl
  rcases (reads_ofExcept _ _).bind_error rest with rfl | ⟨m, built, rest⟩
  · exact .inl rfl
  have compiled := ofExcept_ok compiled
  have built := ofExcept_ok built
  have unsaved := writeOutputs_failed (Module.entryMethod?_of_build built) rest own
  obtain ⟨cause, encoded, rfl, written⟩ := save_failed unsaved own
  rcases Module.encode_of_build compiled built with ⟨-, bytes, done⟩ | ⟨long, unencoded⟩
  · rw [done] at encoded
    cases encoded
  · rw [unencoded] at encoded
    cases encoded
    exact .inr ⟨s, input, o, given, options, long, rfl, written⟩

/-- A bracket that matches no other one: the old module is kept, even where it may be replaced. -/
theorem compile_failed_unmatched
    : let w : World :=
        { files := (FileSystem.empty.addFile (text "a.bf") (text "+]")).addFile (text "a.dll")
            (text "old") }
      let on := (compile [text "a.bf", text "-w"]).on 0 w
      on.1 = .error (.compile (.unmatchedEnd 1)) ∧ on.2.files = w.files := by
  intro w
  have check : ({ name := text "a" } : Options).check = .ok { major := 1 } := check_of_letter []
  have unmatched
      : compileSource (text "+]") { name := text "a" } = .error (.unmatchedEnd 1) := by
    rw [compileSource, Program.compile, Program.checked, check]
    rfl
  have failed
      : (compile [text "a.bf", text "-w"]).on 0 w
        = (.error (.compile (.unmatchedEnd 1)), w) := by
    rw [on_compile (s := { overwrite := true }) (o := { name := text "a" }) rfl rfl rfl rfl rfl,
      unmatched]
    rfl
  have own (fault : FileFault) : Error.compile (.unmatchedEnd 1) ≠ .file fault := by simp
  rw [failed]
  refine ⟨rfl, ?_⟩
  rcases compile_failed failed own with same | ⟨_, _, _, -, -, -, other, -⟩
  · exact same
  · cases other

/-- With a long name all goes well up to the encoding. -/
theorem compile_of_long_name {arguments : List Bytes} {s : CompileSettings} {input : Bytes}
    {o : Options} {source : Bytes} {body : Body} {m : Module} {files : FileSystem}
    (given : CompileSettings.form.arguments? {} arguments = .ok (s, input))
    (overwrite : s.overwrite = true)
    (present : (checkInput input).on fuel w = (.ok (), w))
    (options : (compileOptions s input).on fuel w = (.ok o, w))
    (found : w.files.read input = .ok source)
    (compiled : compileSource source o = .ok body)
    (built : Module.build body o = .ok m)
    (long : Encode.maxCount < o.name.length)
    (emptied : w.files.write (s.modulePath input) [] = .ok files)
    : (compile arguments).on fuel w
      = (.error (.encode (.longText o.name.length)), { w with files }) := by
  have encoded : m.encode = .error (.longText o.name.length) := by
    rcases Module.encode_of_build compiled built with ⟨short, -⟩ | ⟨-, error⟩
    · exact absurd short (Nat.not_le.mpr long)
    · exact error
  rw [on_compile given overwrite present options found]
  simp only [on_bind, on_ofExcept, compiled, built, Except.mapError, writeOutputs, save, on_write,
    emptied, encoded]

/-- A module's file is lost to a compilation that fails, where the module has a long name. -/
theorem compile_empties_module
    : let w : World :=
        { files := (FileSystem.empty.addFile (text "a.bf") (text "+")).addFile (text "a.dll")
            (text "precious") }
      let name : Bytes := List.replicate 65536 (Bytes.code 'a')
      let on := (compile [text "a.bf", text "-w", text "-n", name]).on 0 w
      on.1 = .error (.encode (.longText 65536))
      ∧ w.files.read (text "a.dll") = .ok (text "precious")
      ∧ on.2.files.read (text "a.dll") = .ok [] := by
  intro w
  -- for any long name, so that the one here need not be evaluated
  have general (rest : Bytes) (long : Encode.maxCount < (Bytes.code 'a' :: rest).length)
      : ∃ files, (compile [text "a.bf", text "-w", text "-n", Bytes.code 'a' :: rest]).on 0 w
          = (.error (.encode (.longText (Bytes.code 'a' :: rest).length)), { w with files })
        ∧ files.read (text "a.dll") = .ok [] := by
    have check := check_of_letter rest
    have compiled
        : compileSource (text "+") { name := Bytes.code 'a' :: rest }
          = .ok (Tape.body (Int32.ofInt 30000) true [.increment]) :=
      Tape.compile_eq_ok_iff.mpr ⟨_, [.increment], check, by decide, rfl, rfl⟩
    have good : (Tape.body (Int32.ofInt 30000) true [.increment]).badTarget? = none := by decide
    obtain ⟨m, built⟩
        : ∃ m, Module.build (Tape.body (Int32.ofInt 30000) true [.increment])
            { name := Bytes.code 'a' :: rest } = .ok m := by
      rw [Module.build, check, good]
      exact ⟨_, rfl⟩
    refine ⟨_, compile_of_long_name
      (s := { overwrite := true, name := some (Bytes.code 'a' :: rest) })
      (o := { name := Bytes.code 'a' :: rest }) rfl rfl rfl rfl rfl compiled built long rfl, rfl⟩
  intro name on
  have long : name.length = 65536 := List.length_replicate
  have letter : name = Bytes.code 'a' :: List.replicate 65535 (Bytes.code 'a') :=
    List.replicate_succ
  obtain ⟨files, failed, emptied⟩ :=
    general (List.replicate 65535 (Bytes.code 'a')) (by rw [← letter, long]; decide)
  rw [← letter, long] at failed
  rw [show on = _ from failed]
  exact ⟨rfl, rfl, emptied⟩

end TapeIL.CommandLine.Action
