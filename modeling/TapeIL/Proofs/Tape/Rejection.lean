import TapeIL.Proofs.Tape.Matching
import TapeIL.Proofs.Tape.RoundTrip

/-! What compiling rejects, and where. It fails at the first token that cannot be read, or else at
the last loop start that has no partner, and otherwise it succeeds.
-/

namespace TapeIL

------------------------------------------------------------------------------------------
-- offsets
------------------------------------------------------------------------------------------

namespace Program

theorem locate_cons (p : Program) (i : Nat) (t : Token) (rest : List Token)
    : locate i (t :: rest) (p.offsets.drop i)
      = (t, p.offset i) :: locate (i + 1) rest (p.offsets.drop (i + 1)) := by
  have first : p.offsets[i]? = (p.offsets.drop i)[0]? := by rw [List.getElem?_drop, Nat.add_zero]
  rw [offset, first, ← List.drop_drop]
  cases p.offsets.drop i <;> rfl

/-- Byte `position` of a text is a command, and `i` commands stand before it. -/
structure StandsAt (source : Bytes) (c : Command) (i position : Nat) : Prop where
  byte : source[position]? = some c.byte
  index : ((source.take position).filterMap Command.ofByte?).length = i

/-- Reading finds each command where it stands in the text, by recursion on the text. -/
theorem standsAt_of_scan {start : Nat} {source : Bytes} {i : Nat} {c : Command} {at_ : Nat}
    (found : (scan start source)[i]? = some (c, at_))
    : ∃ position, at_ = start + position ∧ StandsAt source c i position := by
  fun_induction scan start source generalizing i with
  | case1 => simp at found
  | case2 start b rest first isCommand ih =>
      cases i with
      | zero =>
          obtain ⟨rfl, rfl⟩ : first = c ∧ start = at_ := by simpa using found
          exact ⟨0, rfl, by simpa using (Command.byte_of_ofByte? isCommand).symm, rfl⟩
      | succ i =>
          obtain ⟨position, rfl, byte, index⟩ := ih (by simpa using found)
          refine ⟨position + 1, by omega, by simpa using byte, ?_⟩
          rw [List.take_succ_cons, List.filterMap_cons_some isCommand, List.length_cons, index]
  | case3 start b rest comment ih =>
      obtain ⟨position, rfl, byte, index⟩ := ih found
      refine ⟨position + 1, by omega, by simpa using byte, ?_⟩
      rw [List.take_succ_cons, List.filterMap_cons_none comment, index]

/-- A command that stands in the text is found there, by recursion on the text. -/
theorem scan_of_standsAt {start : Nat} {source : Bytes} {i : Nat} {c : Command} {position : Nat}
    (stands : StandsAt source c i position)
    : (scan start source)[i]? = some (c, start + position) := by
  obtain ⟨byte, rfl⟩ := stands
  fun_induction scan start source generalizing position with
  | case1 => simp at byte
  | case2 start b rest first isCommand ih =>
      cases position with
      | zero =>
          obtain rfl : b = c.byte := by simpa using byte
          rw [Command.ofByte?_byte] at isCommand
          cases isCommand
          rfl
      | succ position =>
          rw [List.take_succ_cons, List.filterMap_cons_some isCommand, List.length_cons,
            List.getElem?_cons_succ, ih (by simpa using byte)]
          congr 2
          omega
  | case3 start b rest comment ih =>
      cases position with
      | zero =>
          obtain rfl : b = c.byte := by simpa using byte
          simp [Command.ofByte?_byte] at comment
      | succ position =>
          rw [List.take_succ_cons, List.filterMap_cons_none comment, ih (by simpa using byte)]
          congr 2
          omega

theorem token_parse (source : Bytes) (i : Nat)
    : (parse source).tokens[i]? = ((scan 0 source)[i]?).map (.ofCommand ·.1) :=
  List.getElem?_map

theorem offset_parse {source : Bytes} {i : Nat} {c : Command} {position : Nat}
    (found : (scan 0 source)[i]? = some (c, position))
    : (parse source).offset i = position := by
  simp [offset, parse, found]

/-- A token of a text stands in it, and has its place there as its offset. -/
theorem standsAt_of_token {source : Bytes} {i : Nat} {c : Command}
    (here : (parse source).tokens[i]? = some (.ofCommand c))
    : ∃ position : Nat, (parse source).offset i = position ∧ StandsAt source c i position := by
  rw [token_parse] at here
  obtain ⟨⟨d, at_⟩, found, same⟩ := Option.map_eq_some_iff.mp here
  obtain rfl := Tape.ofCommand_injective same
  obtain ⟨position, rfl, stands⟩ := standsAt_of_scan found
  rw [Nat.zero_add] at found
  exact ⟨position, offset_parse found, stands⟩

/-- What stands in a text is one of its tokens. -/
theorem token_of_standsAt {source : Bytes} {i : Nat} {c : Command} {position : Nat}
    (stands : StandsAt source c i position)
    : (parse source).tokens[i]? = some (.ofCommand c) ∧ (parse source).offset i = position := by
  have found : (scan 0 source)[i]? = some (c, 0 + position) := scan_of_standsAt stands
  rw [Nat.zero_add] at found
  rw [token_parse, found]
  exact ⟨rfl, offset_parse found⟩

end Program

namespace Tape

------------------------------------------------------------------------------------------
-- verdicts
------------------------------------------------------------------------------------------

/-- A token that cannot be read: it is no command, or it is a loop end and every loop start before
it has its partner before it.
-/
def Stuck (ts : List Token) (i : Nat) : Prop :=
  ∃ t, ts[i]? = some t
    ∧ (t.command? = none ∨ t = .ofCommand .loopEnd ∧ ∀ k, ¬Unclosed (ts.take i) k)

def FirstStuck (ts : List Token) (i : Nat) : Prop :=
  Stuck ts i ∧ ∀ j < i, ¬Stuck ts j

/-- The last of the loop starts without a partner, among tokens that can all be read. -/
structure LastUnclosed (ts : List Token) (k : Nat) : Prop where
  readable : ∀ i, ¬Stuck ts i
  unclosed : Unclosed ts k
  last : ∀ other, Unclosed ts other → other ≤ k

/-- What is wrong with a program, with the offset of the token that is to blame. -/
inductive Rejected (p : Program) : CompileError → Prop
  | unexpected {i : Nat} {t : Token} (first : FirstStuck p.tokens i)
    (here : p.tokens[i]? = some t) (noCommand : t.command? = none)
    : Rejected p (.unexpectedToken (p.offset i) t)
  | unmatchedEnd {i : Nat} (first : FirstStuck p.tokens i)
    (here : p.tokens[i]? = some (.ofCommand .loopEnd))
    : Rejected p (.unmatchedEnd (p.offset i))
  | unmatchedStart {k : Nat} (last : LastUnclosed p.tokens k)
    : Rejected p (.unmatchedStart (p.offset k))

/-- All tokens can be read, and every loop start has its partner. -/
structure Accepted (ts : List Token) : Prop where
  readable : ∀ i, ¬Stuck ts i
  closed : ∀ k, ¬Unclosed ts k

theorem FirstStuck.unique {ts : List Token} {i j : Nat} (h : FirstStuck ts i)
    (g : FirstStuck ts j)
    : i = j := by
  rcases Nat.lt_trichotomy i j with before | same | behind
  · exact absurd h.1 (g.2 i before)
  · exact same
  · exact absurd g.1 (h.2 j behind)

theorem LastUnclosed.unique {ts : List Token} {k other : Nat} (h : LastUnclosed ts k)
    (g : LastUnclosed ts other)
    : k = other :=
  Nat.le_antisymm (g.last k h.unclosed) (h.last other g.unclosed)

/-- Only one thing can be wrong with a program. -/
theorem Rejected.unique {p : Program} {e other : CompileError} (h : Rejected p e)
    (g : Rejected p other)
    : e = other := by
  cases h with
  | unexpected first here noCommand =>
      cases g with
      | unexpected second there _ =>
          obtain rfl := first.unique second
          rw [here] at there
          rw [Option.some.inj there]
      | unmatchedEnd second there =>
          obtain rfl := first.unique second
          rw [here] at there
          obtain rfl := Option.some.inj there
          simp at noCommand
      | unmatchedStart last => exact absurd first.1 (last.readable _)
  | unmatchedEnd first here =>
      cases g with
      | unexpected second there noCommand =>
          obtain rfl := first.unique second
          rw [here] at there
          obtain rfl := Option.some.inj there
          simp at noCommand
      | unmatchedEnd second _ => rw [first.unique second]
      | unmatchedStart last => exact absurd first.1 (last.readable _)
  | unmatchedStart last =>
      cases g with
      | unexpected first _ _ => exact absurd first.1 (last.readable _)
      | unmatchedEnd first _ => exact absurd first.1 (last.readable _)
      | unmatchedStart other => rw [last.unique other]

theorem Rejected.not_accepted {p : Program} {e : CompileError} (h : Rejected p e)
    : ¬Accepted p.tokens := by
  intro accepted
  cases h with
  | unexpected first _ _ => exact accepted.readable _ first.1
  | unmatchedEnd first _ => exact accepted.readable _ first.1
  | unmatchedStart last => exact accepted.closed _ last.unclosed

/-- A result of compiling a program is what there is to say about it. -/
def Judged {α : Type} (p : Program) : Except CompileError α → Prop
  | .ok _ => Accepted p.tokens
  | .error e => Rejected p e

theorem Judged.map {α β : Type} {p : Program} {result : Except CompileError α}
    (h : Judged p result) (f : α → β)
    : Judged p (result.map f) := by
  cases result with
  | ok a => exact h
  | error e => exact h

------------------------------------------------------------------------------------------
-- the check of brackets
------------------------------------------------------------------------------------------

theorem commands_action (opened : List Int) (a : Action) (offset : Int)
    (rest : List (Token × Int))
    : commands opened ((.ofCommand a.command, offset) :: rest)
      = (commands opened rest).map (a.command :: ·) := by
  cases a <;> rfl

section Check

variable {p : Program} {before rest : List Token} {ks : List Nat} {t : Token} {c : Command}

/-- Reading one more token leaves none stuck, if the token is a command and, as a loop end, has an
open loop before it.
-/
theorem readable_snoc (whole : p.tokens = before ++ t :: rest)
    (readable : ∀ j < before.length, ¬Stuck p.tokens j) (command : t.command? = some c)
    (ends : c = .loopEnd → ∃ k, Unclosed before k)
    : ∀ j < (before ++ [t]).length, ¬Stuck p.tokens j := by
  intro j inside
  rcases Nat.lt_succ_iff_lt_or_eq.mp (by simpa using inside) with earlier | rfl
  · exact readable j earlier
  · rintro ⟨other, here, stuck⟩
    obtain rfl : t = other := by simpa [whole] using here
    rcases stuck with none | ⟨rfl, closed⟩
    · simp [command] at none
    · rw [whole, List.take_left] at closed
      obtain ⟨k, unclosed⟩ := ends (by simpa using command.symm)
      exact closed k unclosed

/-- The check of what is left says what there is to say, by induction on what is left. The tokens
before it can be read, and leave open the loops whose offsets the check holds.
-/
theorem judged_commands (whole : p.tokens = before ++ rest) (opens : Opens before ks)
    (readable : ∀ j < before.length, ¬Stuck p.tokens j)
    : Judged p (commands (ks.map p.offset)
        (Program.locate before.length rest (p.offsets.drop before.length))) := by
  induction rest generalizing before ks with
  | nil =>
      rw [List.append_nil] at whole
      have readable (i : Nat) : ¬Stuck p.tokens i := by
        by_cases inside : i < before.length
        · exact readable i inside
        · rintro ⟨t, here, -⟩
          simp [whole, inside] at here
      rw [← whole] at opens
      cases ks with
      | nil => exact ⟨readable, fun k unclosed => by simpa using opens.unclosed_iff.mp unclosed⟩
      | cons k outer =>
          refine .unmatchedStart ⟨readable, opens.unclosed_iff.mpr List.mem_cons_self, ?_⟩
          intro other unclosed
          rcases List.mem_cons.mp (opens.unclosed_iff.mp unclosed) with rfl | mem
          · exact Nat.le_refl other
          · exact Nat.le_of_lt (List.rel_of_pairwise_cons opens.descending mem)
  | cons t rest ih =>
      rw [Program.locate_cons]
      have here : p.tokens[before.length]? = some t := by simp [whole]
      have more : p.tokens = (before ++ [t]) ++ rest := by simpa using whole
      have next : before.length + 1 = (before ++ [t]).length := by simp
      cases command : t.command? with
      | none =>
          simp only [commands, command]
          exact .unexpected ⟨⟨t, here, .inl command⟩, readable⟩ here command
      | some c =>
          have snoc := readable_snoc whole readable command
          obtain rfl := token_of_command? command
          rcases command_cases c with rfl | rfl | ⟨a, rfl⟩
          · have judged := ih more (opens.enter .done) (snoc (by simp))
            rw [← next] at judged
            exact judged.map (.loopStart :: ·)
          · cases ks with
            | nil =>
                have closed (k : Nat) : ¬Unclosed (p.tokens.take before.length) k := by
                  rw [whole, List.take_left]
                  exact fun unclosed => by simpa using opens.unclosed_iff.mp unclosed
                exact .unmatchedEnd ⟨⟨_, here, .inr ⟨rfl, closed⟩⟩, readable⟩ here
            | cons k outer =>
                have unclosed := opens.unclosed_iff.mpr (List.mem_cons_self (a := k) (l := outer))
                have judged := ih more opens.finish (snoc fun _ => ⟨k, unclosed⟩)
                rw [← next] at judged
                exact judged.map (.loopEnd :: ·)
          · have judged := ih more (opens.append (.action a .done))
              (snoc fun ends => absurd ends (action_ne_bracket a).2)
            rw [← next] at judged
            rw [commands_action]
            exact judged.map (a.command :: ·)

end Check

theorem judged_compile (p : Program) {o : Options} {version : Version}
    (valid : o.check = .ok version)
    : Judged p (p.compile o) := by
  have readable : ∀ j < ([] : List Token).length, ¬Stuck p.tokens j := by simp
  have checked : Judged p (commands [] p.located) :=
    judged_commands (List.nil_append p.tokens).symm (.block .done) readable
  have compiled : p.compile o
      = (commands [] p.located).map (body (Int32.ofInt o.cells) o.intercept) := by
    rw [Program.compile, Program.checked, valid]
    cases commands [] p.located <;> rfl
  rw [compiled]
  exact checked.map _

/-- With valid options, compiling fails exactly where there is something wrong with the program. -/
theorem compile_eq_error_iff {p : Program} {o : Options} {version : Version}
    (valid : o.check = .ok version) {e : CompileError}
    : p.compile o = .error e ↔ Rejected p e := by
  have judged := judged_compile p valid
  constructor
  · intro failed
    rwa [failed] at judged
  · intro rejected
    cases result : p.compile o with
    | error other =>
        rw [result] at judged
        rw [Rejected.unique judged rejected]
    | ok code =>
        rw [result] at judged
        exact absurd judged rejected.not_accepted

theorem compile_isOk_iff {p : Program} {o : Options} {version : Version}
    (valid : o.check = .ok version)
    : (∃ code, p.compile o = .ok code) ↔ Accepted p.tokens := by
  have judged := judged_compile p valid
  constructor
  · rintro ⟨code, done⟩
    rwa [done] at judged
  · intro accepted
    cases result : p.compile o with
    | ok code => exact ⟨code, rfl⟩
    | error e =>
        rw [result] at judged
        exact absurd accepted judged.not_accepted

/-- A text is made of commands only, so that nothing but its brackets can be wrong. -/
theorem compileSource_eq_error_iff {source : Bytes} {o : Options} {version : Version}
    (valid : o.check = .ok version) {e : CompileError}
    : compileSource source o = .error e
      ↔ (∃ i position : Nat, e = .unmatchedEnd position
          ∧ Program.StandsAt source .loopEnd i position
          ∧ FirstStuck (Program.parse source).tokens i)
        ∨ ∃ k position : Nat, e = .unmatchedStart position
          ∧ Program.StandsAt source .loopStart k position
          ∧ LastUnclosed (Program.parse source).tokens k := by
  rw [compileSource, compile_eq_error_iff valid]
  constructor
  · intro rejected
    cases rejected with
    | unexpected _ here noCommand =>
        rw [Program.token_parse] at here
        obtain ⟨found, -, rfl⟩ := Option.map_eq_some_iff.mp here
        simp at noCommand
    | unmatchedEnd first here =>
        obtain ⟨position, same, stands⟩ := Program.standsAt_of_token here
        exact .inl ⟨_, position, by rw [same], stands, first⟩
    | unmatchedStart last =>
        obtain ⟨position, same, stands⟩ := Program.standsAt_of_token last.unclosed.1
        exact .inr ⟨_, position, by rw [same], stands, last⟩
  · rintro (⟨i, position, rfl, stands, first⟩ | ⟨k, position, rfl, stands, last⟩)
    · obtain ⟨here, same⟩ := Program.token_of_standsAt stands
      rw [← same]
      exact .unmatchedEnd first here
    · rw [← (Program.token_of_standsAt stands).2]
      exact .unmatchedStart last

/-- Which programs are compiled, and what is said of the others. Options are checked first. With
valid options a program is rejected for its first token that cannot be read, or else for the last
loop start without a partner. The error carries the offset of that token, and in a text this is
where the bracket stands.
-/
theorem compile_verdict (o : Options)
    : (∀ cause, o.check = .error cause → ∀ p : Program, p.compile o = .error (.options cause))
      ∧ ∀ version, o.check = .ok version
        → (∀ p : Program,
            (∀ e, p.compile o = .error e ↔ Rejected p e)
            ∧ ((∃ code, p.compile o = .ok code) ↔ Accepted p.tokens))
          ∧ ∀ source e,
            compileSource source o = .error e
            ↔ (∃ i position : Nat, e = .unmatchedEnd position
                ∧ Program.StandsAt source .loopEnd i position
                ∧ FirstStuck (Program.parse source).tokens i)
              ∨ ∃ k position : Nat, e = .unmatchedStart position
                ∧ Program.StandsAt source .loopStart k position
                ∧ LastUnclosed (Program.parse source).tokens k := by
  refine ⟨?_, ?_⟩
  · intro cause invalid p
    rw [Program.compile, Program.checked, invalid]
    rfl
  · intro version valid
    refine ⟨fun p => ⟨fun e => compile_eq_error_iff valid, compile_isOk_iff valid⟩, ?_⟩
    exact fun source e => compileSource_eq_error_iff valid

/-- A loop end too many behind a loop with a comment in it; the loop start behind it does not
count.
-/
theorem compile_verdict_commented
    : let source := text "a[b]c]["
      let o : Options := { name := text "p" }
      o.check = .ok { major := 1 }
      ∧ ∃ i, Program.StandsAt source .loopEnd i 5
        ∧ FirstStuck (Program.parse source).tokens i := by
  intro source o
  have valid : o.check = .ok { major := 1 } := by cbv
  have failed : compileSource source o = .error (.unmatchedEnd 5) := by
    rw [compileSource, Program.compile, Program.checked, valid]
    rfl
  rcases (((compile_verdict o).2 _ valid).2 source _).mp failed with
    ⟨i, position, same, stands, first⟩ | ⟨k, position, other, -⟩
  · obtain rfl : position = 5 := by
      have place : (5 : Int) = position := by simpa using same
      omega
    exact ⟨valid, i, stands, first⟩
  · simp at other

end Tape
end TapeIL
