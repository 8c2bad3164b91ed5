import TapeIL.Proofs.Lint.Compiled
import TapeIL.Proofs.Module.Build
import TapeIL.Proofs.Tape.Recognition
import TapeIL.Proofs.Tape.RoundTrip

/-! Modules of compiled programs are told apart by what identifies them. Byte code can be split into
its instructions in one way only, and opcodes into the windows of commands, so neither lengths nor
names between the parts are needed; what the rows of calls are does not matter.
-/

namespace TapeIL

------------------------------------------------------------------------------------------
-- byte code
------------------------------------------------------------------------------------------

section Instructions

variable {r s : References} {b c : Body}

/-- The first byte of an instruction says how long it is, whatever follows. -/
theorem instruction_append_inj {i j : Instruction} {index : Nat} {rest more : Bytes}
    (hi : i.op.isValid = true) (hj : j.op.isValid = true)
    (same : Encode.instruction r b index i ++ rest = Encode.instruction s c index j ++ more)
    : i.op = j.op ∧ Encode.instruction r b index i = Encode.instruction s c index j
      ∧ rest = more := by
  have byte : i.op.info.code = j.op.info.code := (List.cons.inj same).1
  have op : i.op = j.op := by
    have found := ofByte?_code hi
    rw [byte, ofByte?_code hj] at found
    exact (Option.some.inj found).symm
  have length : (Encode.instruction r b index i).length
      = (Encode.instruction s c index j).length := by
    rw [length_instruction, length_instruction, Instruction.size, Instruction.size, op]
  exact ⟨op, List.append_inj same length⟩

/-- Byte code determines its opcodes, by induction on the instructions. -/
theorem ops_of_instructions {first second : List Instruction} {index : Nat}
    (hf : ∀ i ∈ first, i.op.isValid = true) (hs : ∀ i ∈ second, i.op.isValid = true)
    (same : ((first.zipIdx index).flatMap fun (i, index) => Encode.instruction r b index i)
      = (second.zipIdx index).flatMap fun (i, index) => Encode.instruction s c index i)
    : first.map Instruction.op = second.map Instruction.op := by
  induction first generalizing second index with
  | nil =>
      cases second with
      | nil => rfl
      | cons j rest => cases same
  | cons i rest ih =>
      cases second with
      | nil => cases same
      | cons j more =>
          rw [List.forall_mem_cons] at hf hs
          rw [List.zipIdx_cons, List.flatMap_cons, List.zipIdx_cons, List.flatMap_cons] at same
          obtain ⟨op, -, later⟩ := instruction_append_inj hf.1 hs.1 same
          rw [List.map_cons, List.map_cons, op, ih hf.2 hs.2 later]

/-- Byte code determines the literal that it begins with. -/
theorem literal_of_code {n k : Int32} {rest more : List Instruction}
    (first : b.code.toList = ⟨.ldcI4, .int n⟩ :: rest)
    (second : c.code.toList = ⟨.ldcI4, .int k⟩ :: more)
    (same : Encode.code r b = Encode.code s c)
    : n = k := by
  rw [code_eq, code_eq, first, second, List.zipIdx_cons, List.flatMap_cons, List.zipIdx_cons,
    List.flatMap_cons] at same
  obtain ⟨-, same, -⟩ := instruction_append_inj rfl rfl same
  have bytes : Encode.u32 n.toUInt32 = Encode.u32 k.toUInt32 := (List.cons.inj same).2
  have words := congrArg (fun bytes => (Bytes.ofLittleEndian bytes).toUInt32.toInt32) bytes
  simpa only [Bytes.ofLittleEndian_u32, Int32.toInt32_toUInt32] using words

end Instructions

------------------------------------------------------------------------------------------
-- compiled code
------------------------------------------------------------------------------------------

namespace Tape

/-- The scan looks at nothing but opcodes. -/
theorem window?_congr {first second : List Instruction}
    (same : first.map Instruction.op = second.map Instruction.op)
    : window? first = window? second := by
  have begins (ops : List OpCode) : beginsWith ops first = beginsWith ops second := by
    rw [Bool.eq_iff_iff, beginsWith_iff, beginsWith_iff, same]
  simp only [window?, begins]

/-- Code with the same opcodes is scanned alike, by induction on the code. -/
theorem windows_congr {first second : List Instruction}
    (same : first.map Instruction.op = second.map Instruction.op) (index skip : Nat)
    : windows index skip first = windows index skip second := by
  induction first generalizing second index skip with
  | nil =>
      rw [List.map_nil, eq_comm, List.map_eq_nil_iff] at same
      rw [same]
  | cons i rest ih =>
      obtain ⟨j, more, rfl, op, later⟩ := List.map_eq_cons_iff.mp same.symm
      cases skip with
      | succ skip => exact ih later.symm (index + 1) skip
      | zero =>
          rw [windows, windows, op, window?_congr same]
          simp only [ih later.symm]

/-- The opcodes of laid out commands determine the commands and, if one reads input, the flag. -/
theorem commands_of_ops {i j : Bool} {cs ds : List Command}
    (same : ((layout i 5 [] cs).1 ++ [Instruction.mk .ret .none]).map Instruction.op
      = ((layout j 5 [] ds).1 ++ [Instruction.mk .ret .none]).map Instruction.op)
    : cs = ds ∧ (.input ∈ cs → i = j) := by
  have scanned := windows_congr same 5 0
  rw [windows_layout, windows_layout] at scanned
  have marks : cs.map (mark i) = ds.map (mark j) := Except.ok.inj scanned
  have names := congrArg (List.map Prod.fst) marks
  have first (flag : Bool) (cs : List Command) : (cs.map (mark flag)).map Prod.fst = cs := by
    rw [List.map_map]
    exact List.map_id cs
  rw [first, first] at names
  subst names
  refine ⟨rfl, fun reads => ?_⟩
  have flags := List.map_inj_left.mp marks .input reads
  simpa [mark] using flags

theorem valid_of_body {cells : Int32} {intercept : Bool} {cs : List Command} {i : Instruction}
    (mem : i ∈ (body cells intercept cs).code.toList)
    : i.op.isValid = true := by
  obtain ⟨partner, laid⟩ := laidOut_body cells intercept cs
  obtain ⟨n, here⟩ := Array.mem_iff_getElem?.mp (Array.mem_toList_iff.mp mem)
  exact (Bool.and_eq_true_iff.mp (laid.declared here)).1

/-- The opcodes of the prologue are the same in all programs. -/
theorem ops_body (cells : Int32) (intercept : Bool) (cs : List Command)
    : (body cells intercept cs).code.toList.map Instruction.op
      = (Window.prologue 0).map Instruction.op
        ++ ((layout intercept 5 [] cs).1 ++ [Instruction.mk .ret .none]).map Instruction.op := by
  rw [code_body, List.append_assoc, List.map_append]
  rfl

/-- The byte code of a program determines its commands, the length of the tape and, if it reads
input, the flag; the tables that it is written with need not be known.
-/
theorem body_of_code {r s : References} {n k : Int32} {i j : Bool} {cs ds : List Command}
    (same : Encode.code r (body n i cs) = Encode.code s (body k j ds))
    : n = k ∧ cs = ds ∧ (.input ∈ cs → i = j) := by
  refine ⟨literal_of_code rfl rfl same, commands_of_ops ?_⟩
  rw [code_eq, code_eq] at same
  have ops := ops_of_instructions (fun _ => valid_of_body) (fun _ => valid_of_body) same
  rw [ops_body, ops_body] at ops
  exact List.append_cancel_left ops

theorem body_eq_iff {n k : Int32} {i j : Bool} {cs ds : List Command}
    : body n i cs = body k j ds ↔ n = k ∧ cs = ds ∧ (.input ∈ cs → i = j) := by
  constructor
  · intro same
    exact body_of_code (congrArg (Encode.code {}) same)
  · rintro ⟨rfl, rfl, flag⟩
    by_cases reads : .input ∈ cs
    · rw [flag reads]
    · simp only [body, layout_intercept reads i j]

/-- The lengths of tapes that valid options ask for survive as literals. -/
theorem literal_inj {o other : Options} {v w : Version} (first : o.check = .ok v)
    (second : other.check = .ok w)
    : Int32.ofInt o.cells = Int32.ofInt other.cells ↔ o.cells = other.cells := by
  constructor
  · intro same
    rw [← (cells_of_check first).2, same, (cells_of_check second).2]
  · intro same
    rw [same]

end Tape

------------------------------------------------------------------------------------------
-- modules
------------------------------------------------------------------------------------------

theorem Command.byte_injective : Function.Injective Command.byte := by
  intro c d same
  have found := Command.ofByte?_byte c
  rw [same, Command.ofByte?_byte] at found
  exact (Option.some.inj found).symm

namespace Module

/-- The full name of a method of the program type. -/
def programMethod (name method : Bytes) : Bytes :=
  TypeRef.fullName ⟨name, TypeDef.programName⟩ ++ text "::" ++ method

theorem identified_eq (name : Bytes) (v : Version) (b : Body)
    : let r := References.ofModule (ofEntry name v b)
      (ofEntry name v b).identified
      = name ++ (programMethod name MethodDef.ctorName ++ (Encode.code r MethodDef.ctor.body
        ++ (programMethod name MethodDef.entryName ++ Encode.code r b))) := by
  have methods : (ofEntry name v b).methods
      = [(programMethod name MethodDef.ctorName, .ctor),
        (programMethod name MethodDef.entryName,
          { name := MethodDef.entryName, isStatic := true, body := b })] :=
    rfl
  have named : (ofEntry name v b).name = name := rfl
  simp [identified, methods, named]

/-- Modules of the same name are identified alike exactly if their bodies are the same. The code of
the constructor is as long in both, so the names and the code of the programs stand at the same
places.
-/
theorem identified_ofEntry {name : Bytes} {v w : Version} {n k : Int32} {i j : Bool}
    {cs ds : List Command}
    : (ofEntry name v (Tape.body n i cs)).identified
        = (ofEntry name w (Tape.body k j ds)).identified
      ↔ Tape.body n i cs = Tape.body k j ds := by
  constructor
  · intro same
    rw [identified_eq, identified_eq] at same
    have ctor := List.append_cancel_left (List.append_cancel_left same)
    obtain ⟨-, entry⟩ := List.append_inj ctor (by rw [length_code, length_code])
    exact Tape.body_eq_iff.mpr (Tape.body_of_code (List.append_cancel_left entry))
  · intro same
    rw [same]
    rfl

/-- What identifies a module does not depend on the id that it gets. -/
theorem identified_with (m : Module) (id : ModuleId) : { m with id }.identified = m.identified :=
  rfl

/-- A module is built around every body that is compiled, and gets its id from what identifies
it.
-/
theorem build_of_compile {p : Program} {o : Options} {b : Body} (compiled : p.compile o = .ok b)
    : ∃ version m, Module.build b o = .ok m ∧ m.id = .ofBytes (Blake2b.hash m.identified)
      ∧ m.identified = (ofEntry o.name version b).identified := by
  obtain ⟨version, cs, valid, -, balance, rfl⟩ := Tape.compile_eq_ok_iff.mp compiled
  obtain ⟨block, rfl⟩ := Tape.block_of_balanced balance
  obtain ⟨partner, laid⟩ := Tape.laidOut_body (Int32.ofInt o.cells) o.intercept block.commands
  have good := laid.labelled.targets
  generalize Tape.body (Int32.ofInt o.cells) o.intercept block.commands = b at good
  let m := ofEntry o.name version b
  let id : ModuleId := .ofBytes (Blake2b.hash m.identified)
  refine ⟨version, { m with id }, ?_, ?_, identified_with m id⟩
  · simp only [build, valid, good, Except.mapError]
    rfl
  · rw [identified_with]

/-- Compiled programs of the same name are identified alike exactly if they have the same tokens and
tape length and, where they read input, the same flag. Neither versions nor comments matter. Unless
different texts get one id from their digests, the modules have the same id in the same cases.
-/
theorem identified_iff_same_program {p q : Program} {o other : Options} {b c : Body}
    (name : o.name = other.name) (first : p.compile o = .ok b) (second : q.compile other = .ok c)
    : let same := p.tokens = q.tokens ∧ o.cells = other.cells
        ∧ (.ofCommand .input ∉ p.tokens ∨ o.intercept = other.intercept)
      (∃ m n, Module.build b o = .ok m ∧ Module.build c other = .ok n
        ∧ m.id = .ofBytes (Blake2b.hash m.identified)
        ∧ n.id = .ofBytes (Blake2b.hash n.identified)
        ∧ (m.identified = n.identified ↔ same)
        ∧ ((m.id = n.id → m.identified = n.identified) → (m.id = n.id ↔ same)))
      ∧ ∀ source more, p = .parse source → q = .parse more
        → (p.tokens = q.tokens
          ↔ (source.filter fun b => (text "><+-.,[]").contains b)
            = more.filter fun b => (text "><+-.,[]").contains b) := by
  intro same
  refine ⟨?_, ?_⟩
  · obtain ⟨v, m, built, id, text⟩ := build_of_compile first
    obtain ⟨w, n, built', id', text'⟩ := build_of_compile second
    obtain ⟨_, cs, valid, tokens, -, rfl⟩ := Tape.compile_eq_ok_iff.mp first
    obtain ⟨_, ds, valid', tokens', -, rfl⟩ := Tape.compile_eq_ok_iff.mp second
    have alike : m.identified = n.identified ↔ same := by
      rw [text, text', name, identified_ofEntry, Tape.body_eq_iff, Tape.literal_inj valid valid']
      simp only [same, tokens, tokens']
      have programs : cs.map Token.ofCommand = ds.map Token.ofCommand ↔ cs = ds :=
        List.map_inj_right fun _ _ => Tape.ofCommand_injective
      have reads : Token.ofCommand .input ∈ cs.map Token.ofCommand ↔ .input ∈ cs :=
        List.mem_map_of_injective fun _ _ => Tape.ofCommand_injective
      rw [programs, reads, imp_iff_not_or, and_left_comm]
    refine ⟨m, n, built, built', id, id', alike, fun distinct => ?_⟩
    rw [← alike]
    refine ⟨distinct, fun texts => ?_⟩
    rw [id, id', texts]
  · rintro source more rfl rfl
    rw [← Command.bytes_filterMap, ← Command.bytes_filterMap, Program.tokens_parse,
      Program.tokens_parse, List.map_inj_right fun _ _ => Tape.ofCommand_injective,
      List.map_inj_right fun _ _ same => Command.byte_injective same]

/-- Neither a comment, nor the version, nor the flag of a program without input changes the id; the
tape's length changes what identifies it.
-/
theorem identified_iff_same_program_commented
    : let o : Options := { name := text "p", cells := 7 }
      let other : Options :=
        { name := text "p", version := text "2.0", cells := 7, intercept := false }
      let longer : Options := { o with cells := 8 }
      ∃ b c d k m n,
        compileSource (text "count: +[-]") o = .ok b ∧ compileSource (text "+[-]") other = .ok c
        ∧ compileSource (text "+[-]") longer = .ok d
        ∧ Module.build b o = .ok k ∧ Module.build c other = .ok m ∧ Module.build d longer = .ok n
        ∧ k.id = m.id ∧ k.identified ≠ n.identified := by
  intro o other longer
  let cs : List Command := [.increment, .loopStart, .decrement, .loopEnd]
  have valid : o.check = .ok { major := 1 } := by cbv
  have valid' : other.check = .ok { major := 2 } := by cbv
  have first : compileSource (text "count: +[-]") o = .ok (Tape.body 7 true cs) :=
    Tape.compile_eq_ok_iff.mpr ⟨_, cs, valid, by decide, by decide, rfl⟩
  have second : compileSource (text "+[-]") other = .ok (Tape.body 7 false cs) :=
    Tape.compile_eq_ok_iff.mpr ⟨_, cs, valid', by decide, by decide, rfl⟩
  have third : compileSource (text "+[-]") longer = .ok (Tape.body 8 true cs) :=
    Tape.compile_eq_ok_iff.mpr ⟨_, cs, valid, by decide, by decide, rfl⟩
  have name : o.name = other.name := rfl
  have name' : o.name = longer.name := rfl
  obtain ⟨⟨k, m, hk, hm, id, id', alike, -⟩, -⟩ := identified_iff_same_program name first second
  obtain ⟨⟨k', n, hk', hn, -, -, differ, -⟩, -⟩ := identified_iff_same_program name' first third
  obtain rfl : k = k' := Except.ok.inj (hk.symm.trans hk')
  have same : k.identified = m.identified := alike.mpr (by decide)
  refine ⟨_, _, _, k, m, n, first, second, third, hk, hm, hn, ?_, fun texts => ?_⟩
  · rw [id, id', same]
  · exact absurd (differ.mp texts).2.1 (by decide)

end Module
end TapeIL
