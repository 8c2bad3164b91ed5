import TapeIL.Proofs.Tape.Matching
import TapeIL.Proofs.Tape.RoundTrip
import TapeIL.Proofs.Tape.Simulation

/-! The layout of compiled code: which window stands where, and that the windows of two brackets
lead to each other if the brackets are partners. No two branches share a label.
-/

namespace TapeIL.Tape

------------------------------------------------------------------------------------------
-- windows in order
------------------------------------------------------------------------------------------

/-- The number of instructions in the windows of commands. -/
def width (cs : List Command) : Nat :=
  (cs.map Window.length).sum

@[simp] theorem width_nil : width [] = 0 :=
  rfl

@[simp] theorem width_cons (c : Command) (cs : List Command)
    : width (c :: cs) = Window.length c + width cs := by
  simp [width]

@[simp] theorem width_append (cs ds : List Command) : width (cs ++ ds) = width cs + width ds := by
  simp [width]

/-- The windows of commands one after another. `partner` says for each bracket where the window of
its partner is.
-/
def windowsOf (intercept : Bool) (partner : Nat → Nat) (cs : List Command) : List Instruction :=
  (cs.mapIdx fun k c => Window.ofCommand intercept (partner k) c).flatten

theorem windowsOf_cons (intercept : Bool) (partner : Nat → Nat) (c : Command) (cs : List Command)
    : windowsOf intercept partner (c :: cs)
      = Window.ofCommand intercept (partner 0) c
        ++ windowsOf intercept (fun k => partner (k + 1)) cs := by
  simp [windowsOf]

/-- Commands are laid out as their windows, with some partner for each, by induction on them. -/
theorem layout_windowsOf (intercept : Bool) (start : Nat) (opened : List Nat) (cs : List Command)
    : ∃ partner, (layout intercept start opened cs).1 = windowsOf intercept partner cs := by
  induction cs generalizing start opened with
  | nil => exact ⟨fun _ => 0, rfl⟩
  | cons c rest ih =>
      obtain ⟨first, around, code⟩ := layout_cons intercept start opened c rest
      obtain ⟨partner, windows⟩ := ih (start + Window.length c) around
      refine ⟨fun k => k.casesOn first partner, ?_⟩
      rw [code, windows, windowsOf_cons]
      rfl

theorem length_windowsOf (intercept : Bool) (partner : Nat → Nat) (cs : List Command)
    : (windowsOf intercept partner cs).length = width cs := by
  induction cs generalizing partner with
  | nil => rfl
  | cons c rest ih => rw [windowsOf_cons, List.length_append, length_window, ih, width_cons]

/-- Each window stands behind the windows before it, by induction on the commands. -/
theorem window_hasAt {intercept : Bool} {partner : Nat → Nat} {cs : List Command} {code : Body}
    {start : Nat} (placed : code.HasAt start (windowsOf intercept partner cs)) {k : Nat}
    {c : Command} (here : cs[k]? = some c)
    : code.HasAt (start + width (cs.take k)) (Window.ofCommand intercept (partner k) c) := by
  induction cs generalizing start partner k with
  | nil => simp at here
  | cons d rest ih =>
      rw [windowsOf_cons, Body.hasAt_append, length_window] at placed
      cases k with
      | zero =>
          obtain rfl : d = c := by simpa using here
          exact placed.1
      | succ k =>
          have later := ih placed.2 (by simpa using here)
          rwa [Nat.add_assoc] at later

/-- Each instruction belongs to the window of some command, by induction on the commands. -/
theorem window_of_getElem? {intercept : Bool} {partner : Nat → Nat} {cs : List Command} {n : Nat}
    {i : Instruction} (here : (windowsOf intercept partner cs)[n]? = some i)
    : ∃ k c m, cs[k]? = some c
      ∧ (Window.ofCommand intercept (partner k) c)[m]? = some i
      ∧ n = width (cs.take k) + m := by
  induction cs generalizing partner n with
  | nil => simp [windowsOf] at here
  | cons c rest ih =>
      rw [windowsOf_cons] at here
      by_cases inside : n < (Window.ofCommand intercept (partner 0) c).length
      · rw [List.getElem?_append_left inside] at here
        exact ⟨0, c, n, rfl, here, by simp⟩
      · rw [List.getElem?_append_right (Nat.not_lt.mp inside)] at here
        obtain ⟨k, d, m, found, window, place⟩ := ih here
        refine ⟨k + 1, d, m, by simpa using found, window, ?_⟩
        rw [length_window] at place inside
        rw [List.take_succ_cons, width_cons]
        omega

------------------------------------------------------------------------------------------
-- the place of each window
------------------------------------------------------------------------------------------

/-- Where the window of command `k` starts: behind the prologue and the windows before it. -/
def windowStart (cs : List Command) (k : Nat) : Nat :=
  5 + width (cs.take k)

/-- The window of a loop start at `first` and that of a loop end at `second` lead to each other: the
entry jump to the test, and the test back to behind the entry jump.
-/
structure Paired (code : Body) (first second : Nat) : Prop where
  enter : code.code[first]? = some ⟨.br, .target (.position second)⟩
  test : code.code[second]? = some ⟨.nop, .none⟩
  again : code.code[second + 4]? = some ⟨.brtrue, .target (.position (first + 1))⟩
  inside : code.code[first + 1]? = some ⟨.nop, .none⟩

/-- Partners in terms of commands. -/
theorem split_of_partners {cs : List Command} {i j : Nat}
    (partners : Partners (cs.map .ofCommand) i j)
    : ∃ before b after, cs = before ++ .loopStart :: (Block.commands b ++ .loopEnd :: after)
      ∧ before.length = i ∧ i + 1 + b.commands.length = j := by
  obtain ⟨front, b, back, split, length, place⟩ := partners
  obtain ⟨before, loop, rfl, rfl, opened⟩ := List.map_eq_append_iff.mp split
  obtain ⟨c, behind, rfl, start, entered⟩ := List.map_eq_cons_iff.mp opened
  obtain ⟨inner, closing, rfl, inside, closed⟩ := List.map_eq_append_iff.mp entered
  obtain ⟨d, after, rfl, finish, -⟩ := List.map_eq_cons_iff.mp closed
  obtain rfl := ofCommand_injective start
  obtain rfl := ofCommand_injective finish
  obtain rfl : inner = b.commands :=
    (List.map_inj_right fun _ _ => ofCommand_injective).mp inside
  rw [List.length_map] at length
  rw [Block.tokens, List.length_map] at place
  exact ⟨before, b, after, rfl, length, place⟩

/-- Layout of a first part of commands, which is followed by the layout of the others. -/
theorem layout_append (intercept : Bool) (start : Nat) (opened : List Nat)
    (before rest : List Command)
    : ∃ front around, (layout intercept start opened (before ++ rest)).1
        = front ++ (layout intercept (start + width before) around rest).1
      ∧ front.length = width before := by
  induction before generalizing start opened with
  | nil => exact ⟨[], opened, rfl, rfl⟩
  | cons c before ih =>
      obtain ⟨partner, around, code⟩ := layout_cons intercept start opened c (before ++ rest)
      obtain ⟨front, inner, later, length⟩ := ih (start + Window.length c) around
      refine ⟨Window.ofCommand intercept partner c ++ front, inner, ?_, ?_⟩
      · rw [List.cons_append, code, later, width_cons, List.append_assoc, Nat.add_assoc]
      · rw [List.length_append, length_window, length, width_cons]

theorem length_code (intercept : Bool) (start : Nat) (b : Block)
    : (b.code intercept start).length = width b.commands := by
  obtain ⟨partner, windows⟩ := layout_windowsOf intercept start [] (b.commands ++ [])
  have block := congrArg Prod.fst (layout_block intercept b start [] [])
  rw [windows, List.append_nil] at block
  have lengths := congrArg List.length block
  rw [length_windowsOf] at lengths
  simpa [layout] using lengths.symm

theorem code_body (cells : Int32) (intercept : Bool) (cs : List Command)
    : (body cells intercept cs).code.toList
      = Window.prologue cells ++ (layout intercept 5 [] cs).1 ++ [⟨.ret, .none⟩] :=
  rfl

/-- The code of a loop between any commands. -/
theorem loopAt_body (cells : Int32) (intercept : Bool) (before after : List Command) (b : Block)
    : LoopAt intercept
        (body cells intercept (before ++ .loopStart :: (b.commands ++ .loopEnd :: after)))
        (5 + width before) b := by
  obtain ⟨front, around, split, length⟩ := layout_append intercept 5 [] before
    (.loopStart :: (b.commands ++ .loopEnd :: after))
  have loop : ∃ more, (layout intercept (5 + width before) around
        (.loopStart :: (b.commands ++ .loopEnd :: after))).1
      = Window.loopStart (closeOf intercept (5 + width before) b)
          ++ b.code intercept (5 + width before + 2) ++ Window.loopEnd (5 + width before)
          ++ more := by
    simp only [layout, Window.length, layout_block, List.headD_cons, closeOf, List.append_assoc]
    exact ⟨_, rfl⟩
  obtain ⟨more, loop⟩ := loop
  have whole : (body cells intercept
        (before ++ .loopStart :: (b.commands ++ .loopEnd :: after))).code.toList
      = (Window.prologue cells ++ front)
        ++ ((Window.loopStart (closeOf intercept (5 + width before) b)
          ++ b.code intercept (5 + width before + 2) ++ Window.loopEnd (5 + width before))
          ++ (more ++ [⟨.ret, .none⟩])) := by
    simp only [code_body, split, loop, List.append_assoc]
  have placed := Body.hasAt_of_toList whole
  rw [List.length_append, length] at placed
  exact ((Body.hasAt_append _ _ _ _).mp placed).1

------------------------------------------------------------------------------------------
-- laid out bodies
------------------------------------------------------------------------------------------

/-- Code is laid out for commands: the prologue, the windows of the commands in order, and a `ret`.
Partners have each other's windows as their targets.
-/
structure LaidOut (cells : Int32) (intercept : Bool) (cs : List Command) (partner : Nat → Nat)
    (code : Body) : Prop where
  locals : code.locals = Window.locals
  code : code.code.toList
    = Window.prologue cells ++ windowsOf intercept partner cs ++ [⟨.ret, .none⟩]
  partners : ∀ {i j}, Partners (cs.map .ofCommand) i j
    → partner i = windowStart cs j ∧ partner j = windowStart cs i

section LaidOut

variable {cells : Int32} {intercept : Bool} {cs : List Command} {partner : Nat → Nat} {code : Body}
  {i j k n : Nat} {c : Command}

theorem window_of_code
    (whole : code.code.toList
      = Window.prologue cells ++ windowsOf intercept partner cs ++ [⟨.ret, .none⟩])
    (here : cs[k]? = some c)
    : code.HasAt (windowStart cs k) (Window.ofCommand intercept (partner k) c) := by
  rw [List.append_assoc] at whole
  have placed := ((Body.hasAt_append _ _ _ _).mp (Body.hasAt_of_toList whole)).1
  exact window_hasAt placed here

theorem LaidOut.window (h : LaidOut cells intercept cs partner code) (here : cs[k]? = some c)
    : code.HasAt (windowStart cs k) (Window.ofCommand intercept (partner k) c) :=
  window_of_code h.code here

theorem command_of_token (here : (cs.map Token.ofCommand)[k]? = some (.ofCommand c))
    : cs[k]? = some c := by
  rw [List.getElem?_map] at here
  obtain ⟨d, found, same⟩ := Option.map_eq_some_iff.mp here
  rw [found, ofCommand_injective same]

theorem LaidOut.paired (h : LaidOut cells intercept cs partner code)
    (partners : Partners (cs.map .ofCommand) i j)
    : Paired code (windowStart cs i) (windowStart cs j) := by
  obtain ⟨second, first⟩ := h.partners partners
  obtain ⟨enter, inside, -⟩ := h.window (command_of_token partners.start)
  obtain ⟨test, -, -, -, again, -⟩ := h.window (command_of_token partners.finish)
  rw [second] at enter
  rw [first] at again
  exact ⟨enter, test, again, inside⟩

/-- Where the two windows of a loop stand. -/
theorem windowStart_loop (intercept : Bool) (before after : List Command) (b : Block)
    : let cs := before ++ .loopStart :: (b.commands ++ .loopEnd :: after)
      windowStart cs before.length = 5 + width before
      ∧ windowStart cs (before.length + 1 + b.commands.length)
        = closeOf intercept (5 + width before) b := by
  have split : before ++ .loopStart :: (b.commands ++ .loopEnd :: after)
      = (before ++ .loopStart :: b.commands) ++ .loopEnd :: after := by
    simp
  have length : before.length + 1 + b.commands.length
      = (before ++ .loopStart :: b.commands).length := by
    simp only [List.length_append, List.length_cons]
    omega
  refine ⟨by rw [windowStart, List.take_left], ?_⟩
  rw [windowStart, split, length, List.take_left, closeOf, length_code]
  simp only [width_append, width_cons, Window.length]
  omega

/-- What commands are compiled to is laid out for them. Of each loop the code stands in one piece,
which shows where its two windows lead.
-/
theorem laidOut_body (cells : Int32) (intercept : Bool) (cs : List Command)
    : ∃ partner, LaidOut cells intercept cs partner (body cells intercept cs) := by
  obtain ⟨partner, windows⟩ := layout_windowsOf intercept 5 [] cs
  have whole : (body cells intercept cs).code.toList
      = Window.prologue cells ++ windowsOf intercept partner cs ++ [⟨.ret, .none⟩] := by
    rw [← windows, code_body]
  refine ⟨partner, rfl, whole, ?_⟩
  intro i j partners
  obtain ⟨enter, -⟩ := window_of_code whole (command_of_token partners.start)
  obtain ⟨-, -, -, -, again, -⟩ := window_of_code whole (command_of_token partners.finish)
  obtain ⟨before, b, after, rfl, rfl, rfl⟩ := split_of_partners partners
  obtain ⟨first, second⟩ := windowStart_loop intercept before after b
  obtain ⟨jump, -, -, -, back⟩ := (loopAt_body cells intercept before after b).pieces
  rw [first] at enter ⊢
  rw [second] at again ⊢
  have close := jump.symm.trans enter
  have start := back.symm.trans again
  simp only [Option.some.injEq, Instruction.mk.injEq, Operand.target.injEq, Target.position.injEq,
    Nat.add_right_cancel_iff, true_and] at close start
  exact ⟨close.symm, start.symm⟩

end LaidOut

------------------------------------------------------------------------------------------
-- branches and labels
------------------------------------------------------------------------------------------

section Window

variable {intercept : Bool} {partner m : Nat} {c : Command} {i : Instruction}

theorem lt_length_of_window (here : (Window.ofCommand intercept partner c)[m]? = some i)
    : m < Window.length c := by
  rw [← length_window intercept partner c]
  exact (List.getElem?_eq_some_iff.mp here).1

/-- Only the entry jump of a loop and the jump back to it are branches. -/
theorem window_branch (here : (Window.ofCommand intercept partner c)[m]? = some i)
    (branch : i.op.isBranch = true)
    : c = .loopStart ∧ m = 0 ∧ i = ⟨.br, .target (.position partner)⟩
      ∨ c = .loopEnd ∧ m = 4 ∧ i = ⟨.brtrue, .target (.position (partner + 1))⟩ := by
  have inside := lt_length_of_window here
  cases intercept <;> cases c <;> simp only [Window.length] at inside <;> interval_cases m <;>
    cases here <;> first | contradiction | simp

theorem window_nop (here : (Window.ofCommand intercept partner c)[m]? = some ⟨.nop, .none⟩)
    : c = .loopStart ∧ m = 1 ∨ c = .loopEnd ∧ m = 0 := by
  have inside := lt_length_of_window here
  cases intercept <;> cases c <;> simp only [Window.length] at inside <;> interval_cases m <;>
    first | cases here; done | simp

end Window

theorem windowStart_succ {cs : List Command} {k : Nat} {c : Command} (here : cs[k]? = some c)
    : windowStart cs (k + 1) = windowStart cs k + Window.length c := by
  rw [windowStart, windowStart, List.take_add_one, here, width_append]
  simp [Nat.add_assoc]

theorem windowStart_le (cs : List Command) {k l : Nat} (order : k ≤ l)
    : windowStart cs k ≤ windowStart cs l := by
  have parts := List.take_append_drop k (cs.take l)
  rw [List.take_take, Nat.min_eq_left order] at parts
  rw [windowStart, windowStart, ← parts, width_append]
  omega

/-- No instruction belongs to two windows. -/
theorem window_unique {cs : List Command} {k l m n : Nat} {c d : Command} (first : cs[k]? = some c)
    (second : cs[l]? = some d) (inFirst : m < Window.length c) (inSecond : n < Window.length d)
    (same : windowStart cs k + m = windowStart cs l + n)
    : k = l ∧ m = n := by
  have behindFirst := windowStart_succ first
  have behindSecond := windowStart_succ second
  rcases Nat.lt_trichotomy k l with before | rfl | behind
  · have order : windowStart cs (k + 1) ≤ windowStart cs l := windowStart_le cs before
    omega
  · exact ⟨rfl, by omega⟩
  · have order : windowStart cs (l + 1) ≤ windowStart cs k := windowStart_le cs behind
    omega

section Nested

variable {cells : Int32} {intercept : Bool} {cs : List Command} {partner : Nat → Nat} {code : Body}
  {n : Nat} {i : Instruction}

/-- An instruction is one of the prologue, one of a window, or the `ret`. -/
theorem LaidOut.locate (h : LaidOut cells intercept cs partner code)
    (here : code.code[n]? = some i)
    : (Window.prologue cells)[n]? = some i
      ∨ (∃ k c m, cs[k]? = some c ∧ (Window.ofCommand intercept (partner k) c)[m]? = some i
        ∧ n = windowStart cs k + m)
      ∨ n = windowStart cs cs.length ∧ i = ⟨.ret, .none⟩ := by
  have prologue : (Window.prologue cells).length = 5 := rfl
  rw [← Array.getElem?_toList, h.code, List.append_assoc] at here
  by_cases front : n < 5
  · rw [List.getElem?_append_left (prologue ▸ front)] at here
    exact .inl here
  · obtain ⟨n, rfl⟩ := Nat.exists_eq_add_of_le (Nat.not_lt.mp front)
    rw [List.getElem?_append_right (by omega), prologue, Nat.add_sub_cancel_left] at here
    by_cases middle : n < width cs
    · rw [List.getElem?_append_left (length_windowsOf .. ▸ middle)] at here
      obtain ⟨k, c, m, found, window, rfl⟩ := window_of_getElem? here
      exact .inr (.inl ⟨k, c, m, found, window, by rw [windowStart, Nat.add_assoc]⟩)
    · rw [List.getElem?_append_right (by rw [length_windowsOf]; omega), length_windowsOf,
        List.getElem?_singleton] at here
      simp only [Option.ite_none_right_eq_some, Option.some.injEq] at here
      refine .inr (.inr ⟨?_, here.2.symm⟩)
      rw [windowStart, List.take_length]
      omega

/-- A branch is the entry jump of a loop, or the jump back to it. -/
theorem LaidOut.branch {b : Block} (h : LaidOut cells intercept b.commands partner code)
    (here : code.code[n]? = some i) (branch : i.op.isBranch = true)
    : ∃ first second, Partners b.tokens first second
      ∧ (n = windowStart b.commands first
          ∧ i = ⟨.br, .target (.position (windowStart b.commands second))⟩
        ∨ n = windowStart b.commands second + 4
          ∧ i = ⟨.brtrue, .target (.position (windowStart b.commands first + 1))⟩) := by
  rcases h.locate here with prologue | ⟨k, c, m, found, window, rfl⟩ | ⟨-, rfl⟩
  · have mem := List.mem_of_getElem? prologue
    simp only [Window.prologue, List.mem_cons, List.not_mem_nil, or_false] at mem
    rcases mem with rfl | rfl | rfl | rfl | rfl <;> contradiction
  · have token : b.tokens[k]? = some (.ofCommand c) := by simp [Block.tokens, found]
    rcases window_branch window branch with ⟨rfl, rfl, rfl⟩ | ⟨rfl, rfl, rfl⟩
    · obtain ⟨second, partners⟩ := partner_of_start token
      rw [(h.partners partners).1]
      exact ⟨k, second, partners, .inl ⟨rfl, rfl⟩⟩
    · obtain ⟨first, partners⟩ := partner_of_finish token
      rw [(h.partners partners).2]
      exact ⟨first, k, partners, .inr ⟨rfl, rfl⟩⟩
  · contradiction

/-- A label is the test of a loop, or stands behind the entry jump of one. -/
theorem LaidOut.label {b : Block} (h : LaidOut cells intercept b.commands partner code)
    (here : code.code[n]? = some ⟨.nop, .none⟩)
    : ∃ first second, Partners b.tokens first second
      ∧ (n = windowStart b.commands second ∨ n = windowStart b.commands first + 1) := by
  rcases h.locate here with prologue | ⟨k, c, m, found, window, rfl⟩ | ⟨-, other⟩
  · have mem := List.mem_of_getElem? prologue
    simp [Window.prologue] at mem
  · have token : b.tokens[k]? = some (.ofCommand c) := by simp [Block.tokens, found]
    rcases window_nop window with ⟨rfl, rfl⟩ | ⟨rfl, rfl⟩
    · obtain ⟨second, partners⟩ := partner_of_start token
      exact ⟨k, second, partners, .inr rfl⟩
    · obtain ⟨first, partners⟩ := partner_of_finish token
      exact ⟨first, k, partners, .inl rfl⟩
  · cases other

/-- The labels of a body are its `nop`s. Every branch leads to one, and to each exactly one branch
leads.
-/
structure Labelled (code : Body) : Prop where
  placed : ∀ {n : Nat} {i : Instruction}, code.code[n]? = some i → i.op.isBranch = true
    → ∃ label : Nat, code.branch? i = some label ∧ code.code[label]? = some ⟨.nop, .none⟩
  once : ∀ {label : Nat}, code.code[label]? = some ⟨.nop, .none⟩
    → ∃! n : Nat, ∃ i, code.code[n]? = some i ∧ i.op.isBranch = true
      ∧ code.branch? i = some label

theorem branch?_of_found {code : Body} {i : Instruction} {label : Nat}
    (here : code.code[label]? = some i) (op : OpCode)
    : code.branch? ⟨op, .target (.position label)⟩ = some label :=
  if_pos (Array.getElem?_eq_some_iff.mp here).1

theorem target_of_branch? {code : Body} {op : OpCode} {index label : Nat}
    (leads : code.branch? ⟨op, .target (.position index)⟩ = some label)
    : index = label := by
  have resolved : (if index < code.size then some index else none) = some label := leads
  split at resolved
  · exact Option.some.inj resolved
  · cases resolved

/-- Loops share no label. -/
theorem Partners.windows_inj {b : Block} {first second i j : Nat}
    (h : Partners b.tokens first second) (g : Partners b.tokens i j)
    : (windowStart b.commands second = windowStart b.commands j → first = i ∧ second = j)
      ∧ (windowStart b.commands first + 1 = windowStart b.commands i + 1 → first = i ∧ second = j)
      ∧ windowStart b.commands second ≠ windowStart b.commands i + 1 := by
  have start := command_of_token g.start
  have finish := command_of_token g.finish
  refine ⟨?_, ?_, ?_⟩
  · intro same
    obtain ⟨rfl, -⟩ := window_unique (m := 0) (n := 0) (command_of_token h.finish) finish
      (by decide) (by decide) same
    exact ⟨h.start_unique g (openBehind?_tokens 0 [] b), rfl⟩
  · intro same
    obtain ⟨rfl, -⟩ := window_unique (command_of_token h.start) start (by decide) (by decide) same
    exact ⟨rfl, h.finish_unique g⟩
  · intro same
    obtain ⟨-, zero⟩ := window_unique (m := 0) (n := 1) (command_of_token h.finish) start
      (by decide) (by decide) same
    cases zero

/-- Every label belongs to one loop, which has one branch to it. -/
theorem LaidOut.labelled {b : Block} (h : LaidOut cells intercept b.commands partner code)
    : Labelled code := by
  refine ⟨?_, ?_⟩
  · intro n i here branch
    obtain ⟨first, second, partners, ⟨rfl, rfl⟩ | ⟨rfl, rfl⟩⟩ := h.branch here branch
    · have test := (h.paired partners).test
      exact ⟨_, branch?_of_found test .br, test⟩
    · have inside := (h.paired partners).inside
      exact ⟨_, branch?_of_found inside .brtrue, inside⟩
  · intro label here
    obtain ⟨first, second, partners, rfl | rfl⟩ := h.label here
    · refine ⟨_, ⟨_, (h.paired partners).enter, rfl, branch?_of_found here .br⟩, ?_⟩
      rintro n ⟨i, there, branch, leads⟩
      obtain ⟨_, _, others, ⟨rfl, rfl⟩ | ⟨rfl, rfl⟩⟩ := h.branch there branch
      · obtain ⟨rfl, -⟩ := (others.windows_inj partners).1 (target_of_branch? leads)
        rfl
      · exact absurd (target_of_branch? leads).symm (partners.windows_inj others).2.2
    · refine ⟨_, ⟨_, (h.paired partners).again, rfl, branch?_of_found here .brtrue⟩, ?_⟩
      rintro n ⟨i, there, branch, leads⟩
      obtain ⟨_, _, others, ⟨rfl, rfl⟩ | ⟨rfl, rfl⟩⟩ := h.branch there branch
      · exact absurd (target_of_branch? leads) (others.windows_inj partners).2.2
      · obtain ⟨-, rfl⟩ := (others.windows_inj partners).2.1 (target_of_branch? leads)
        rfl

theorem Labelled.targets (h : Labelled code) : code.badTarget? = none := by
  refine Body.badTarget?_eq_none fun i mem branch => ?_
  obtain ⟨n, here⟩ := Array.mem_iff_getElem?.mp mem
  obtain ⟨label, leads, -⟩ := h.placed here branch
  rw [leads]
  rfl

end Nested

/-- The code of a program with matching brackets is the prologue, then for each token its window in
order, and a `ret`. A window starts behind the windows before it. Every bracket has one partner, and
the windows of partners lead to each other. Every label is placed once, so that no target is bad.
-/
theorem compile_layout {p : Program} {b : Block} {o : Options} {version : Version}
    (nested : p.tokens = b.tokens) (valid : o.check = .ok version)
    : ∃ code partner,
        p.compile o = .ok code
        ∧ code.code.toList = Window.prologue (Int32.ofInt o.cells)
            ++ windowsOf o.intercept partner b.commands ++ [⟨.ret, .none⟩]
        ∧ (∀ k c, p.tokens[k]? = some (.ofCommand c)
            → code.HasAt (windowStart b.commands k) (Window.ofCommand o.intercept (partner k) c))
        ∧ (∀ i, p.tokens[i]? = some (.ofCommand .loopStart) → ∃! j, Partners p.tokens i j)
        ∧ (∀ j, p.tokens[j]? = some (.ofCommand .loopEnd) → ∃! i, Partners p.tokens i j)
        ∧ (∀ i j, Partners p.tokens i j
            → Paired code (windowStart b.commands i) (windowStart b.commands j))
        ∧ Labelled code
        ∧ code.badTarget? = none := by
  obtain ⟨partner, laid⟩ := laidOut_body (Int32.ofInt o.cells) o.intercept b.commands
  rw [nested]
  refine ⟨_, partner, compile_block nested valid, laid.code, ?_, ?_, ?_, ?_, laid.labelled,
    laid.labelled.targets⟩
  · intro k c here
    exact laid.window (command_of_token here)
  · intro i here
    obtain ⟨j, partners⟩ := partner_of_start here
    exact ⟨j, partners, fun _ other => other.finish_unique partners⟩
  · intro j here
    obtain ⟨i, partners⟩ := partner_of_finish here
    exact ⟨i, partners, fun _ other => other.start_unique partners (openBehind?_tokens 0 [] b)⟩
  · intro i j partners
    exact laid.paired partners

/-- One loop in another. -/
theorem compile_layout_nested
    : let p := Program.parse (text "[>[-]]")
      let inner := Block.action .decrement .done
      let b := Block.loop (.action .moveRight (.loop inner .done)) .done
      let o : Options := { name := text "Nested" }
      p.tokens = b.tokens
      ∧ o.check = .ok { major := 1 }
      ∧ ∃ code, p.compile o = .ok code
        ∧ Paired code 5 27
        ∧ Paired code 11 22
        ∧ Labelled code
        ∧ code.badTarget? = none := by
  intro p inner b o
  have nested : p.tokens = b.tokens := by decide
  have valid : o.check = .ok { major := 1 } := by cbv
  have outerLoop : Partners p.tokens 0 5 :=
    ⟨[], .action .moveRight (.loop inner .done), [], by decide, rfl, rfl⟩
  have innerLoop : Partners p.tokens 2 4 :=
    ⟨[.ofCommand .loopStart, .ofCommand .moveRight], inner, [.ofCommand .loopEnd], by decide, rfl,
      rfl⟩
  obtain ⟨code, -, compiled, -, -, -, -, paired, labelled, good⟩ := compile_layout nested valid
  exact ⟨nested, valid, code, compiled, paired 0 5 outerLoop, paired 2 4 innerLoop, labelled, good⟩

end TapeIL.Tape
