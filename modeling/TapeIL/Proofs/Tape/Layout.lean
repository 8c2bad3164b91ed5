import TapeIL.Proofs.Tape.Semantics
import TapeIL.Tape.Compile

/-! The code of a block: the one-pass layout places each loop's test right behind the code of the
loop's body.
-/

namespace TapeIL.Tape

namespace Block

/-- The code of a block from instruction `start`. -/
def code (intercept : Bool) (start : Nat) : Block → List Instruction
  | .done => []
  | .action a rest =>
      Window.ofCommand intercept 0 a.command
        ++ rest.code intercept (start + Window.length a.command)
  | .loop body rest =>
      let inner := body.code intercept (start + 2)
      let close := start + 2 + inner.length
      Window.loopStart close ++ inner ++ Window.loopEnd start ++ rest.code intercept (close + 5)

end Block

@[simp] theorem length_window (intercept : Bool) (partner : Nat) (c : Command)
    : (Window.ofCommand intercept partner c).length = Window.length c := by
  cases c <;> rfl

/-- An action's window is laid out in front of what follows it. -/
theorem layout_action (intercept : Bool) (start : Nat) (opened : List Nat) (a : Action)
    (more : List Command)
    : layout intercept start opened (a.command :: more)
      = (Window.ofCommand intercept 0 a.command
            ++ (layout intercept (start + Window.length a.command) opened more).1,
          (layout intercept (start + Window.length a.command) opened more).2) := by
  cases a <;> rfl

/-- Laying out a block's commands gives the block's code and then whatever follows, by induction
on the block; a loop's test is the first window that its body leaves unmatched.
-/
theorem layout_block (intercept : Bool) (b : Block) (start : Nat) (opened : List Nat)
    (more : List Command)
    : layout intercept start opened (b.commands ++ more)
      = (b.code intercept start
            ++ (layout intercept (start + (b.code intercept start).length) opened more).1,
          (layout intercept (start + (b.code intercept start).length) opened more).2) := by
  induction b generalizing start opened more with
  | done => simp [Block.commands, Block.code]
  | action a rest ih =>
      rw [Block.commands, List.cons_append, layout_action, ih]
      simp only [Block.code, List.length_append, length_window, List.append_assoc, Nat.add_assoc]
  | loop body rest ihBody ihRest =>
      have inner := ihBody (start + 2) (start :: opened) (.loopEnd :: (rest.commands ++ more))
      simp only [Block.commands, List.cons_append, List.append_assoc]
      simp only [layout, Window.length, inner, ihRest, List.tail_cons, List.headD_cons,
        Block.code, List.append_assoc, List.length_append]
      simp [Window.loopStart, Window.loopEnd, Nat.add_assoc, Nat.add_comm 5]

end TapeIL.Tape
