import TapeIL.Proofs.Tape.Semantics
import TapeIL.Tape.Compile

/-! What compiling accepts: valid options and the tokens of commands whose brackets match. Offsets
only locate errors, so they do not count.
-/

namespace TapeIL.Tape

@[simp] theorem command?_ofCommand (c : Command) : (Token.ofCommand c).command? = some c := by
  cases c <;> rfl

theorem ofCommand_injective {c d : Command} (h : Token.ofCommand c = Token.ofCommand d)
    : c = d := by
  have := congrArg Token.command? h
  simpa using this

theorem token_of_command? {t : Token} {c : Command} (h : t.command? = some c)
    : t = .ofCommand c := by
  have number : c.number = t.number := by simpa using List.find?_some h
  cases t
  simp_all [Token.ofCommand]

/-- Whether the brackets of commands match when `depth` loops are open before them. -/
def balanced : (depth : Nat) → List Command → Bool
  | depth, [] => depth == 0
  | depth, .loopStart :: rest => balanced (depth + 1) rest
  | 0, .loopEnd :: _ => false
  | depth + 1, .loopEnd :: rest => balanced depth rest
  | depth, _ :: rest => balanced depth rest

theorem balanced_cons {c : Command} (hs : c ≠ .loopStart) (he : c ≠ .loopEnd) (depth : Nat)
    (rest : List Command)
    : balanced depth (c :: rest) = balanced depth rest := by
  cases c <;> first | contradiction | rfl

/-- A token that is a command stands first among the tokens of commands exactly when that command
stands first among them.
-/
theorem cons_eq_tokens_iff {t : Token} {c : Command} (h : t.command? = some c)
    {tokens : List Token} {cs : List Command}
    : t :: tokens = cs.map .ofCommand ↔ ∃ rest, tokens = rest.map .ofCommand ∧ c :: rest = cs := by
  obtain rfl := token_of_command? h
  constructor
  · intro eq
    obtain ⟨first, rest, rfl, same, tail⟩ := List.map_eq_cons_iff.mp eq.symm
    obtain rfl := ofCommand_injective same
    exact ⟨rest, tail.symm, rfl⟩
  · rintro ⟨rest, rfl, rfl⟩
    rfl

/-- Accepting one more command: what the check of the rest accepts, it accepts behind the command,
as long as the command takes the open loops from `depth` to `next`.
-/
theorem accepts_cons {t : Token} {c : Command} (h : t.command? = some c) {tokens : List Token}
    {depth next : Nat} (step : ∀ rest, balanced depth (c :: rest) = balanced next rest)
    {x : Except CompileError (List Command)}
    (ih : ∀ {cs}, x = .ok cs ↔ tokens = cs.map .ofCommand ∧ balanced next cs = true)
    {cs : List Command}
    : x.map (c :: ·) = .ok cs ↔ t :: tokens = cs.map .ofCommand ∧ balanced depth cs = true := by
  rw [cons_eq_tokens_iff h]
  constructor
  · intro ok
    cases x with
    | error e => simp [Except.map] at ok
    | ok rest =>
        obtain rfl : c :: rest = cs := by simpa [Except.map] using ok
        obtain ⟨htokens, balance⟩ := ih.mp rfl
        exact ⟨⟨rest, htokens, rfl⟩, by rw [step, balance]⟩
  · rintro ⟨⟨rest, htokens, rfl⟩, balance⟩
    rw [step] at balance
    rw [ih.mpr ⟨htokens, balance⟩]
    rfl

/-- The bracket check accepts exactly the tokens of balanced commands, whatever their offsets, by
recursion on the check.
-/
theorem commands_eq_ok_iff {opened : List Int} {located : List (Token × Int)}
    {cs : List Command}
    : commands opened located = .ok cs
      ↔ located.map Prod.fst = cs.map .ofCommand ∧ balanced opened.length cs = true := by
  fun_induction commands opened located generalizing cs with
  | case1 => cases cs <;> simp [balanced]
  | case2 offset outer => cases cs <;> simp [balanced]
  | case3 opened token offset rest noCommand =>
      cases cs with
      | nil => simp
      | cons c cs =>
          have : token ≠ .ofCommand c := by
            rintro rfl
            simp at noCommand
          simp [this]
  | case4 opened token offset rest isStart ih => exact accepts_cons isStart (fun _ => rfl) ih
  | case5 token offset rest isEnd =>
      rw [List.map_cons, cons_eq_tokens_iff isEnd]
      simp only [reduceCtorEq, false_iff]
      rintro ⟨⟨rest, tokens, rfl⟩, balance⟩
      simp [balanced] at balance
  | case6 token offset rest isEnd inner outer ih => exact accepts_cons isEnd (fun _ => rfl) ih
  | case7 opened token offset rest c notStart notEnd isCommand ih =>
      exact accepts_cons isCommand (balanced_cons notStart notEnd _) ih

/-- The brackets of a block match, whatever loops are open around it, by induction on the block. -/
theorem balanced_append (b : Block) (depth : Nat) (more : List Command)
    : balanced depth (b.commands ++ more) = balanced depth more := by
  induction b generalizing depth more with
  | done => rfl
  | action a rest ih =>
      rw [Block.commands, List.cons_append, balanced_cons (by cases a <;> simp [Action.command])
        (by cases a <;> simp [Action.command]), ih]
  | loop body rest ihBody ihRest =>
      simp only [Block.commands, List.cons_append, List.append_assoc, balanced, ihBody, ihRest]

theorem balanced_commands (b : Block) : balanced 0 b.commands = true := by
  simpa [balanced] using balanced_append b 0 []

/-- Locating tokens changes none of them, by recursion on how far the offsets reach. -/
theorem map_fst_locate (i : Nat) (tokens : List Token) (offsets : List Int)
    : (Program.locate i tokens offsets).map Prod.fst = tokens := by
  fun_induction Program.locate i tokens offsets <;> simp_all

theorem map_fst_located (p : Program) : p.located.map Prod.fst = p.tokens :=
  map_fst_locate 0 p.tokens p.offsets

/-- Compiling succeeds exactly on valid options and the tokens of balanced commands. -/
theorem compile_eq_ok_iff {p : Program} {o : Options} {code : Body}
    : p.compile o = .ok code
      ↔ ∃ version cs, o.check = .ok version ∧ p.tokens = cs.map .ofCommand
        ∧ balanced 0 cs = true ∧ code = body (Int32.ofInt o.cells) o.intercept cs := by
  have accepted (cs : List Command)
      : commands [] p.located = .ok cs
        ↔ p.tokens = cs.map .ofCommand ∧ balanced 0 cs = true := by
    rw [commands_eq_ok_iff, map_fst_located]
    rfl
  simp only [Program.compile, Program.checked, Except.mapError, bind, Except.bind, pure,
    Except.pure]
  cases o.check with
  | error e => simp
  | ok version =>
      cases checked : commands [] p.located with
      | error e =>
          simp only [checked, reduceCtorEq, false_iff] at accepted
          simp only [reduceCtorEq, false_iff]
          rintro ⟨_, cs, _, tokens, balance, _⟩
          exact accepted cs ⟨tokens, balance⟩
      | ok found =>
          constructor
          · rintro ⟨⟩
            obtain ⟨tokens, balance⟩ := (accepted found).mp checked
            exact ⟨version, found, rfl, tokens, balance, rfl⟩
          · rintro ⟨_, cs, _, tokens, balance, rfl⟩
            have same := (accepted cs).mpr ⟨tokens, balance⟩
            obtain rfl : found = cs := by simpa [checked] using same
            rfl

/-- The tape's length in valid options is positive and survives the conversion to a literal. -/
theorem cells_of_check {o : Options} {version : Version} (h : o.check = .ok version)
    : 0 < o.cells ∧ (Int32.ofInt o.cells).toInt = o.cells := by
  unfold Options.check at h
  split at h <;> try contradiction
  split at h <;> try contradiction
  split at h <;> try contradiction
  refine ⟨by omega, Int32.toInt_ofInt_of_le ?_ ?_⟩ <;> omega

end TapeIL.Tape
