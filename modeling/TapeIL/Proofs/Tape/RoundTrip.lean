import TapeIL.Proofs.IL.Body
import TapeIL.Proofs.Tape.Brackets
import TapeIL.Proofs.Tape.Layout
import TapeIL.Tape.Decompile

/-! Decompiling undoes compiling. Scanning the code of a checked program never loses step with its
windows, so the commands, the tape's length and the input flag all come back.
-/

namespace TapeIL

------------------------------------------------------------------------------------------
-- source text
------------------------------------------------------------------------------------------

/-- The eight command characters are the bytes of the commands. -/
theorem Command.bytes_all : Command.all.map Command.byte = text "><+-.,[]" := by
  decide

theorem Command.ofByte?_byte (c : Command) : Command.ofByte? c.byte = some c := by
  cases c <;> decide

theorem Command.byte_of_ofByte? {b : UInt8} {c : Command} (h : Command.ofByte? b = some c)
    : c.byte = b := by
  simpa using List.find?_some h

/-- A command is among those of a text exactly if its byte is in the text. -/
theorem Command.contains_filterMap (c : Command) (source : Bytes)
    : (source.filterMap Command.ofByte?).contains c = source.contains c.byte := by
  rw [Bool.eq_iff_iff, List.contains_iff_mem, List.contains_iff_mem, List.mem_filterMap]
  constructor
  · rintro ⟨b, mem, found⟩
    rwa [Command.byte_of_ofByte? found]
  · intro mem
    exact ⟨c.byte, mem, Command.ofByte?_byte c⟩

/-- Deleting the comments of a text leaves the bytes of its commands, by induction on the text. -/
theorem Command.bytes_filterMap (source : Bytes)
    : (source.filterMap Command.ofByte?).map Command.byte
      = source.filter fun b => (text "><+-.,[]").contains b := by
  rw [← Command.bytes_all]
  induction source with
  | nil => rfl
  | cons b rest ih =>
      cases found : Command.ofByte? b with
      | none =>
          have absent : ¬(Command.all.map Command.byte).contains b = true := by
            simpa [Command.ofByte?] using found
          rw [List.filterMap_cons_none found, ih, List.filter_cons_of_neg absent]
      | some c =>
          have byte := Command.byte_of_ofByte? found
          have present : (Command.all.map Command.byte).contains b = true := by
            have mem := List.mem_of_find?_eq_some found
            simpa using ⟨c, mem, byte⟩
          rw [List.filterMap_cons_some found, List.map_cons, ih, byte,
            List.filter_cons_of_pos present]

/-- Reading keeps the commands of a text in order, wherever the text begins. -/
theorem Program.map_fst_scan (start : Nat) (source : Bytes)
    : (Program.scan start source).map Prod.fst = source.filterMap Command.ofByte? := by
  fun_induction Program.scan start source <;> simp_all

theorem Program.tokens_parse (source : Bytes)
    : (Program.parse source).tokens = (source.filterMap Command.ofByte?).map .ofCommand := by
  rw [← Program.map_fst_scan 0 source, List.map_map]
  rfl

theorem Program.toText_ofCommands (cs : List Command)
    : ({ tokens := cs.map .ofCommand } : Program).toText = cs.map Command.byte := by
  rw [Program.toText, List.map_map]
  exact List.map_congr_left fun c _ => by cases c <;> rfl

namespace Tape

------------------------------------------------------------------------------------------
-- scanning the windows
------------------------------------------------------------------------------------------

/-- What the scan reports for the window of a command. A window with no flag is found with the
flag set, because that setting is tried first.
-/
def mark (intercept : Bool) (c : Command) : Command × Bool :=
  (c, c != .input || intercept)

/-- A window is recognised whatever code follows it: no window tried before it, of any command,
begins with the same opcodes.
-/
theorem window?_ofCommand (intercept : Bool) (partner : Nat) (c : Command)
    (rest : List Instruction)
    : window? (Window.ofCommand intercept partner c ++ rest) = some (mark intercept c) := by
  cases c <;> cases intercept <;> rfl

theorem windows_skip (index : Nat) (inside rest : List Instruction)
    : windows index inside.length (inside ++ rest) = windows (index + inside.length) 0 rest := by
  induction inside generalizing index with
  | nil => rfl
  | cons i inside ih =>
      rw [List.length_cons, List.cons_append, windows, ih]
      congr 1
      omega

theorem window_cons (intercept : Bool) (partner : Nat) (c : Command)
    : ∃ first inside, Window.ofCommand intercept partner c = first :: inside
      ∧ first.op ≠ .ret ∧ inside.length = Window.length c - 1 := by
  cases c <;> exact ⟨_, _, rfl, by simp, rfl⟩

/-- The scan goes from the start of a window to the code right behind it. -/
theorem windows_ofCommand (index : Nat) (intercept : Bool) (partner : Nat) (c : Command)
    (rest : List Instruction)
    : ∃ next, windows index 0 (Window.ofCommand intercept partner c ++ rest)
      = (windows next 0 rest).map (mark intercept c :: ·) := by
  have found := window?_ofCommand intercept partner c rest
  obtain ⟨first, inside, eq, notRet, length⟩ := window_cons intercept partner c
  rw [eq, List.cons_append] at found ⊢
  refine ⟨index + 1 + inside.length, ?_⟩
  rw [windows, if_neg notRet, found]
  simp only [mark, ← length, windows_skip]

/-- The layout of commands begins with the window of the first. -/
theorem layout_cons (intercept : Bool) (start : Nat) (opened : List Nat) (c : Command)
    (rest : List Command)
    : ∃ partner around, (layout intercept start opened (c :: rest)).1
      = Window.ofCommand intercept partner c
        ++ (layout intercept (start + Window.length c) around rest).1 := by
  cases c <;> exact ⟨_, _, rfl⟩

/-- Scanning laid out commands up to the `ret` behind them finds every one, by induction on the
commands.
-/
theorem windows_layout (index : Nat) (intercept : Bool) (start : Nat) (opened : List Nat)
    (cs : List Command) (more : List Instruction)
    : windows index 0 ((layout intercept start opened cs).1 ++ ⟨.ret, .none⟩ :: more)
      = .ok (cs.map (mark intercept)) := by
  induction cs generalizing index start opened with
  | nil => rfl
  | cons c rest ih =>
      obtain ⟨partner, around, code⟩ := layout_cons intercept start opened c rest
      rw [code, List.append_assoc]
      obtain ⟨next, scanned⟩ := windows_ofCommand index intercept partner c
        ((layout intercept (start + Window.length c) around rest).1 ++ ⟨.ret, .none⟩ :: more)
      rw [scanned, ih]
      rfl

/-- The recovered flag is the compiler's where a command reads input, and false elsewhere. The
fold is generalised over the flag found so far.
-/
theorem lastIntercept_mark (intercept : Bool) (cs : List Command)
    : lastIntercept (cs.map (mark intercept)) = (cs.contains .input && intercept) := by
  have general (last : Bool)
      : (cs.map (mark intercept)).foldl
          (fun last found => if found.1 = .input then found.2 else last) last
        = if cs.contains .input then intercept else last := by
    induction cs generalizing last with
    | nil => rfl
    | cons c rest ih =>
        rw [List.map_cons, List.foldl_cons, ih]
        by_cases input : c = .input <;> cases h : rest.contains .input <;>
          simp_all [mark, eq_comm]
  refine (general false).trans ?_
  cases cs.contains .input <;> rfl

/-- Code without an input command is laid out the same under either flag, by induction on the
commands.
-/
theorem layout_intercept {cs : List Command} (h : .input ∉ cs) (i j : Bool) (start : Nat)
    (opened : List Nat)
    : layout i start opened cs = layout j start opened cs := by
  induction cs generalizing start opened with
  | nil => rfl
  | cons c rest ih =>
      rw [List.mem_cons, not_or] at h
      obtain ⟨notInput, absent⟩ := h
      cases c with
      | input => exact absurd rfl notInput
      | _ => simp only [layout, ih absent, Window.ofCommand]

/-- The recovered flag gives the same body as the flag compiled with. -/
theorem body_recovered (cells : Int32) (intercept : Bool) (cs : List Command)
    : body cells (cs.contains .input && intercept) cs = body cells intercept cs := by
  cases input : cs.contains .input with
  | true => rfl
  | false =>
      have absent : .input ∉ cs := by simpa using input
      simp only [body, layout_intercept absent (false && intercept) intercept]

/-- Decompiling the body of commands gives the commands, the tape's length and the recovered
flag, whatever stands behind the body's `ret`.
-/
theorem decompile_body (cells : Int32) (intercept : Bool) (cs : List Command)
    (more : List Instruction)
    : ((body cells intercept cs).append more).decompile
      = .ok { program := { tokens := cs.map .ofCommand }
              cells := cells.toInt
              intercept := cs.contains .input && intercept } := by
  have code : ((body cells intercept cs).append more).code.toList
      = Window.prologue cells ++ ((layout intercept 5 [] cs).1 ++ ⟨.ret, .none⟩ :: more) := by
    simp [Body.append, body, Window.prologue]
  have scanned := windows_layout 5 intercept 5 [] cs more
  have names : (cs.map (mark intercept)).map (fun found => Token.ofCommand found.1)
      = cs.map .ofCommand := by
    simp [mark]
  rw [Body.decompile, code]
  -- The prologue is as expected and its type operand is `byte`, so only the scan is left.
  change (windows 5 0 ((layout intercept 5 [] cs).1 ++ ⟨.ret, .none⟩ :: more)
    >>= fun ws => Except.ok (Decompilation.mk ⟨ws.map _, []⟩ _ _)) = _
  rw [scanned, ← names, ← lastIntercept_mark]
  rfl

------------------------------------------------------------------------------------------
-- compiling again
------------------------------------------------------------------------------------------

/-- Whether options are valid depends neither on the flag nor on how the length is written. -/
theorem check_recovered {o : Options} {cells : Int} (h : cells = o.cells) (intercept : Bool)
    : { o with cells := cells, intercept := intercept }.check = o.check := by
  subst h
  rfl

/-- Decompiling recovers a compiled text without its comments, the tape's length and, where the
text reads input, the input flag, whatever stands behind the compiled `ret`. Compiling what was
recovered gives the same body.
-/
theorem decompile_compiled {source : Bytes} {o : Options} {code : Body}
    (h : compileSource source o = .ok code) (more : List Instruction)
    : ∃ d, (code.append more).decompile = .ok d
        ∧ d.program.toText = source.filter (fun b => (text "><+-.,[]").contains b)
        ∧ d.cells = o.cells
        ∧ d.intercept = (source.contains (Bytes.code ',') && o.intercept)
        ∧ ∃ again,
            d.program.compile { o with cells := d.cells, intercept := d.intercept } = .ok again
            ∧ again.same code = true := by
  obtain ⟨version, cs, valid, tokens, balance, rfl⟩ := compile_eq_ok_iff.mp h
  obtain ⟨-, cells⟩ := cells_of_check valid
  obtain rfl : source.filterMap Command.ofByte? = cs := by
    rw [Program.tokens_parse] at tokens
    exact (List.map_inj_right fun _ _ => ofCommand_injective).mp tokens
  refine ⟨_, decompile_body _ _ _ more, ?_, cells, ?_, ?_⟩
  · rw [Program.toText_ofCommands, Command.bytes_filterMap]
  · exact congrArg (· && o.intercept) (Command.contains_filterMap .input source)
  · refine ⟨_, compile_eq_ok_iff.mpr ⟨version, _, ?_, rfl, balance, rfl⟩, ?_⟩
    · rw [check_recovered cells, valid]
    · rw [cells, body_recovered]
      exact Body.same_self _

/-- A text with comments, input, an empty loop in a loop, and code behind the `ret` that begins a
window.
-/
theorem decompile_compiled_commented
    : let source := text "echo ,[.[]] twice"
      let o : Options := { name := text "p", cells := 7 }
      ∃ code d, compileSource source o = .ok code
        ∧ (code.append [⟨.nop, .none⟩, ⟨.ldloc0, .none⟩]).decompile = .ok d
        ∧ d.program.toText = text ",[.[]]" ∧ d.cells = 7 ∧ d.intercept = true := by
  intro source o
  have valid : o.check = .ok { major := 1 } := by cbv
  let cs : List Command := [.input, .loopStart, .output, .loopStart, .loopEnd, .loopEnd]
  have compiled : compileSource source o = .ok (body 7 true cs) :=
    compile_eq_ok_iff.mpr ⟨_, cs, valid, by decide, by decide, rfl⟩
  obtain ⟨d, ok, program, cells, intercept, -⟩ :=
    decompile_compiled compiled [⟨.nop, .none⟩, ⟨.ldloc0, .none⟩]
  exact ⟨_, d, compiled, ok, program.trans (by decide), cells, intercept.trans (by decide)⟩

end Tape
end TapeIL
