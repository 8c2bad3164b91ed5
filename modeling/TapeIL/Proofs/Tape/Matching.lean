import TapeIL.Proofs.Tape.Brackets

/-! Partners among the brackets of tokens, and the loops that tokens leave open. Two brackets are
partners if the brackets between them match; a loop start without a partner is open.
-/

namespace TapeIL.Tape

theorem Block.tokens_append (a b : Block) : (a.append b).tokens = a.tokens ++ b.tokens := by
  unfold tokens
  induction a with
  | done => rfl
  | action first rest ih => simp [append, commands, ih]
  | loop body rest _ ih => simp [append, commands, ih]

theorem Block.tokens_done : Block.done.tokens = [] :=
  rfl

theorem Block.tokens_action (a : Action) (rest : Block)
    : (Block.action a rest).tokens = .ofCommand a.command :: rest.tokens :=
  rfl

theorem Block.tokens_loop (body rest : Block)
    : (Block.loop body rest).tokens
      = .ofCommand .loopStart :: (body.tokens ++ .ofCommand .loopEnd :: rest.tokens) := by
  simp [tokens, commands]

/-- An action is written with no bracket. -/
theorem action_ne_bracket (a : Action) : a.command ≠ .loopStart ∧ a.command ≠ .loopEnd := by
  cases a <;> simp [Action.command]

------------------------------------------------------------------------------------------
-- partners
------------------------------------------------------------------------------------------

/-- The tokens at `i` and `j` are partners: a loop start and a loop end, and between them the tokens
of a block.
-/
def Partners (ts : List Token) (i j : Nat) : Prop :=
  ∃ before b after,
    ts = before ++ .ofCommand .loopStart :: (Block.tokens b ++ .ofCommand .loopEnd :: after)
    ∧ before.length = i
    ∧ i + 1 + b.tokens.length = j

section Partners

variable {ts : List Token} {i j : Nat}

theorem Partners.start (h : Partners ts i j) : ts[i]? = some (.ofCommand .loopStart) := by
  obtain ⟨before, b, after, rfl, rfl, rfl⟩ := h
  simp

theorem Partners.finish (h : Partners ts i j) : ts[j]? = some (.ofCommand .loopEnd) := by
  obtain ⟨before, b, after, rfl, rfl, rfl⟩ := h
  simp [Nat.add_assoc, Nat.add_comm 1]

/-- Partners stay partners among more tokens. -/
theorem Partners.within (h : Partners ts i j) (front back : List Token)
    : Partners (front ++ ts ++ back) (front.length + i) (front.length + j) := by
  obtain ⟨before, b, after, rfl, rfl, rfl⟩ := h
  refine ⟨front ++ before, b, after ++ back, by simp, by simp, by omega⟩

/-- Every bracket of a block has a partner in it, by induction on the block. -/
theorem partner_of_bracket {b : Block} {k : Nat} {c : Command}
    (bracket : c = .loopStart ∨ c = .loopEnd) (here : b.tokens[k]? = some (.ofCommand c))
    : ∃ i j, Partners b.tokens i j ∧ (k = i ∨ k = j) := by
  induction b generalizing k with
  | done => simp [Block.tokens_done] at here
  | action a rest ih =>
      rw [Block.tokens_action] at here ⊢
      cases k with
      | zero =>
          obtain rfl : a.command = c := ofCommand_injective (by simpa using here)
          exact absurd bracket (by simpa using action_ne_bracket a)
      | succ k =>
          obtain ⟨i, j, partners, place⟩ := ih (by simpa using here)
          have larger := partners.within [.ofCommand a.command] []
          rw [List.append_nil] at larger
          exact ⟨_, _, larger, by simp; omega⟩
  | loop body rest ihBody ihRest =>
      rw [Block.tokens_loop] at here ⊢
      have outermost : Partners
          (.ofCommand .loopStart :: (body.tokens ++ .ofCommand .loopEnd :: rest.tokens)) 0
          (0 + 1 + body.tokens.length) :=
        ⟨[], body, rest.tokens, rfl, rfl, rfl⟩
      cases k with
      | zero => exact ⟨0, _, outermost, .inl rfl⟩
      | succ k =>
          rw [List.getElem?_cons_succ] at here
          by_cases inside : k < body.tokens.length
          · rw [List.getElem?_append_left inside] at here
            obtain ⟨i, j, partners, place⟩ := ihBody here
            have larger := partners.within [.ofCommand .loopStart]
              (.ofCommand .loopEnd :: rest.tokens)
            exact ⟨_, _, larger, by simp; omega⟩
          · obtain ⟨past, rfl⟩ := Nat.exists_eq_add_of_le (Nat.not_lt.mp inside)
            rw [List.getElem?_append_right (by omega), Nat.add_sub_cancel_left] at here
            cases past with
            | zero => exact ⟨0, _, outermost, .inr (by omega)⟩
            | succ past =>
                obtain ⟨i, j, partners, place⟩ := ihRest (by simpa using here)
                have larger := partners.within
                  (.ofCommand .loopStart :: (body.tokens ++ [.ofCommand .loopEnd])) []
                simp only [List.append_nil, List.cons_append, List.append_assoc, List.nil_append]
                  at larger
                exact ⟨_, _, larger, by simp; omega⟩

theorem partner_of_start {b : Block} (here : b.tokens[i]? = some (.ofCommand .loopStart))
    : ∃ j, Partners b.tokens i j := by
  obtain ⟨first, second, partners, rfl | rfl⟩ := partner_of_bracket (.inl rfl) here
  · exact ⟨second, partners⟩
  · have finish := partners.finish
    rw [here] at finish
    exact absurd (ofCommand_injective (Option.some.inj finish)) (by simp)

theorem partner_of_finish {b : Block} (here : b.tokens[j]? = some (.ofCommand .loopEnd))
    : ∃ i, Partners b.tokens i j := by
  obtain ⟨first, second, partners, rfl | rfl⟩ := partner_of_bracket (.inr rfl) here
  · have start := partners.start
    rw [here] at start
    exact absurd (ofCommand_injective (Option.some.inj start)) (by simp)
  · exact ⟨first, partners⟩

/-- The loop end behind a block ends it, by induction on the block. -/
theorem block_unique {b other : Block} {after more : List Token}
    (same : b.tokens ++ .ofCommand .loopEnd :: after = other.tokens ++ .ofCommand .loopEnd :: more)
    : b.tokens = other.tokens ∧ after = more := by
  have differ {c d : Command} (no : c ≠ d) : Token.ofCommand c ≠ .ofCommand d :=
    mt ofCommand_injective no
  induction b generalizing other after more with
  | done =>
      cases other with
      | done => simpa [Block.tokens_done] using same
      | action a rest =>
          simp [Block.tokens_done, Block.tokens_action, differ (action_ne_bracket a).2.symm] at same
      | loop body rest => simp [Block.tokens_done, Block.tokens_loop, differ] at same
  | action a rest ih =>
      cases other with
      | done =>
          simp [Block.tokens_done, Block.tokens_action, differ (action_ne_bracket a).2] at same
      | action d others =>
          simp only [Block.tokens_action, List.cons_append, List.cons.injEq] at same
          obtain ⟨tokens, behind⟩ := ih same.2
          exact ⟨by rw [Block.tokens_action, Block.tokens_action, same.1, tokens], behind⟩
      | loop body rest =>
          simp [Block.tokens_action, Block.tokens_loop, differ (action_ne_bracket a).1] at same
  | loop body rest ihBody ihRest =>
      cases other with
      | done => simp [Block.tokens_done, Block.tokens_loop, differ] at same
      | action a rest =>
          simp [Block.tokens_action, Block.tokens_loop, differ (action_ne_bracket a).1.symm] at same
      | loop inner others =>
          simp only [Block.tokens_loop, List.cons_append, List.append_assoc, List.cons.injEq,
            true_and] at same
          obtain ⟨inside, past⟩ := ihBody same
          obtain ⟨tokens, behind⟩ := ihRest past
          exact ⟨by rw [Block.tokens_loop, Block.tokens_loop, inside, tokens], behind⟩

theorem Partners.finish_unique {second : Nat} (h : Partners ts i j) (g : Partners ts i second)
    : j = second := by
  obtain ⟨before, b, after, rfl, rfl, rfl⟩ := h
  obtain ⟨front, other, more, same, length, rfl⟩ := g
  obtain ⟨-, behind⟩ := List.append_inj same length.symm
  obtain ⟨tokens, -⟩ := block_unique (List.cons.inj behind).2
  rw [tokens]

end Partners

------------------------------------------------------------------------------------------
-- open loops
------------------------------------------------------------------------------------------

/-- The loops that are open behind tokens, the innermost first, if those in `opened` are open before
the first token, which is token `i`. There are none where a token is no command, or ends no loop.
-/
def openBehind? (i : Nat) (opened : List Nat) : List Token → Option (List Nat)
  | [] => some opened
  | t :: rest =>
      match t.command? with
      | none => none
      | some .loopStart => openBehind? (i + 1) (i :: opened) rest
      | some .loopEnd =>
          match opened with
          | [] => none
          | _ :: outer => openBehind? (i + 1) outer rest
      | some _ => openBehind? (i + 1) opened rest

theorem command_cases (c : Command)
    : c = .loopStart ∨ c = .loopEnd ∨ ∃ a : Action, c = a.command := by
  cases c with
  | moveRight => exact .inr (.inr ⟨.moveRight, rfl⟩)
  | moveLeft => exact .inr (.inr ⟨.moveLeft, rfl⟩)
  | increment => exact .inr (.inr ⟨.increment, rfl⟩)
  | decrement => exact .inr (.inr ⟨.decrement, rfl⟩)
  | output => exact .inr (.inr ⟨.output, rfl⟩)
  | input => exact .inr (.inr ⟨.input, rfl⟩)
  | loopStart => exact .inl rfl
  | loopEnd => exact .inr (.inl rfl)

section Reading

variable (i : Nat) (opened : List Nat) (rest : List Token)

theorem openBehind?_start
    : openBehind? i opened (.ofCommand .loopStart :: rest)
      = openBehind? (i + 1) (i :: opened) rest :=
  rfl

theorem openBehind?_finish (inner : Nat)
    : openBehind? i (inner :: opened) (.ofCommand .loopEnd :: rest)
      = openBehind? (i + 1) opened rest :=
  rfl

theorem openBehind?_action (a : Action)
    : openBehind? i opened (.ofCommand a.command :: rest) = openBehind? (i + 1) opened rest := by
  cases a <;> rfl

/-- Tokens are read one part after the other, by induction on the first part. -/
theorem openBehind?_append (first second : List Token)
    : openBehind? i opened (first ++ second)
      = (openBehind? i opened first).bind fun middle =>
          openBehind? (i + first.length) middle second := by
  induction first generalizing i opened with
  | nil => rfl
  | cons t rest ih =>
      have next : i + (t :: rest).length = i + 1 + rest.length := by
        simp only [List.length_cons]
        omega
      rw [next, List.cons_append]
      cases found : t.command? with
      | none => simp [openBehind?, found]
      | some c =>
          obtain rfl := token_of_command? found
          rcases command_cases c with rfl | rfl | ⟨a, rfl⟩
          · exact ih (i + 1) (i :: opened)
          · cases opened with
            | nil => rfl
            | cons inner outer => exact ih (i + 1) outer
          · rw [openBehind?_action, openBehind?_action]
            exact ih (i + 1) opened

/-- A block closes all loops that it opens, by induction on the block. -/
theorem openBehind?_block (b : Block)
    : openBehind? i opened (b.tokens ++ rest)
      = openBehind? (i + b.tokens.length) opened rest := by
  induction b generalizing i opened rest with
  | done => rfl
  | action a later ih =>
      rw [Block.tokens_action, List.cons_append, openBehind?_action, ih, List.length_cons,
        Nat.add_assoc, Nat.add_comm 1]
  | loop body later ihBody ihLater =>
      rw [Block.tokens_loop, List.cons_append, openBehind?_start, List.append_assoc, ihBody,
        List.cons_append, openBehind?_finish, ihLater]
      congr 1
      simp only [List.length_cons, List.length_append]
      omega

theorem openBehind?_tokens (b : Block) : openBehind? i opened b.tokens = some opened := by
  have read := openBehind?_block i opened [] b
  rwa [List.append_nil] at read

end Reading

variable {ts : List Token} {ks : List Nat} {i j k : Nat}

/-- A loop that is open behind tokens was open before them, or starts at one of them. -/
theorem place_of_openBehind? {opened : List Nat} (read : openBehind? i opened ts = some ks)
    (mem : k ∈ ks)
    : k ∈ opened ∨ i ≤ k ∧ k < i + ts.length := by
  induction ts generalizing i opened with
  | nil =>
      obtain rfl : opened = ks := Option.some.inj read
      exact .inl mem
  | cons t rest ih =>
      rw [List.length_cons]
      cases found : t.command? with
      | none => simp [openBehind?, found] at read
      | some c =>
          obtain rfl := token_of_command? found
          rcases command_cases c with rfl | rfl | ⟨a, rfl⟩
          · rcases ih read with old | new
            · rcases List.mem_cons.mp old with rfl | old
              · exact .inr (by omega)
              · exact .inl old
            · exact .inr (by omega)
          · cases opened with
            | nil => cases read
            | cons inner outer =>
                rcases ih read with old | new
                · exact .inl (List.mem_cons_of_mem inner old)
                · exact .inr (by omega)
          · rw [openBehind?_action] at read
            rcases ih read with old | new
            · exact .inl old
            · exact .inr (by omega)

/-- Right before a loop end, its partner is the innermost open loop; right behind it the others are
open.
-/
theorem Partners.read (h : Partners ts i j) (read : openBehind? 0 [] ts = some ks)
    : ∃ outer, openBehind? 0 [] (ts.take j) = some (i :: outer)
      ∧ (∀ k ∈ outer, k < i)
      ∧ openBehind? (j + 1) outer (ts.drop (j + 1)) = some ks := by
  obtain ⟨before, b, after, rfl, rfl, rfl⟩ := h
  have place : before.length + 1 + b.tokens.length
      = (before ++ .ofCommand .loopStart :: b.tokens).length := by
    simp only [List.length_append, List.length_cons]
    omega
  have split : before ++ .ofCommand .loopStart :: (b.tokens ++ .ofCommand .loopEnd :: after)
      = before ++ .ofCommand .loopStart :: b.tokens ++ .ofCommand .loopEnd :: after := by
    simp
  rw [openBehind?_append] at read
  obtain ⟨outer, first, read⟩ := Option.bind_eq_some_iff.mp read
  rw [openBehind?_start, openBehind?_block, openBehind?_finish, Nat.zero_add] at read
  refine ⟨outer, ?_, ?_, ?_⟩
  · rw [split, place, List.take_left, openBehind?_append, first, Option.bind_some,
      openBehind?_start, openBehind?_tokens, Nat.zero_add]
  · intro k mem
    simpa using place_of_openBehind? first mem
  · rw [split, place, ← List.drop_drop, List.drop_left, ← place]
    exact read

/-- A loop that is open behind tokens has no partner among them. -/
theorem not_partners_of_open (read : openBehind? 0 [] ts = some ks) (mem : k ∈ ks)
    : ¬Partners ts k j := by
  intro partners
  obtain ⟨outer, -, below, rest⟩ := partners.read read
  have later : k < j := by
    obtain ⟨before, b, after, -, rfl, rfl⟩ := partners
    omega
  rcases place_of_openBehind? rest mem with old | new
  · exact Nat.lt_irrefl k (below k old)
  · omega

theorem Partners.start_unique {second : Nat} (h : Partners ts i j) (g : Partners ts second j)
    (read : openBehind? 0 [] ts = some ks)
    : i = second := by
  obtain ⟨_, first, -⟩ := h.read read
  obtain ⟨_, other, -⟩ := g.read read
  rw [first] at other
  exact (List.cons.inj (Option.some.inj other)).1

------------------------------------------------------------------------------------------
-- the shape of tokens with open loops
------------------------------------------------------------------------------------------

/-- Tokens that leave loops open, the innermost first: a block, and then again and again a loop
start and a block.
-/
inductive Opens : List Token → List Nat → Prop
  | block (b : Block) : Opens b.tokens []
  | enter {ts : List Token} {ks : List Nat} (h : Opens ts ks) (b : Block)
    : Opens (ts ++ .ofCommand .loopStart :: b.tokens) (ts.length :: ks)

theorem Opens.append (h : Opens ts ks) (b : Block) : Opens (ts ++ b.tokens) ks := by
  cases h with
  | block first =>
      rw [← Block.tokens_append]
      exact .block (first.append b)
  | enter h inner =>
      rw [List.append_assoc, List.cons_append, ← Block.tokens_append]
      exact h.enter (inner.append b)

/-- A loop end closes the innermost loop, which makes a block of it. -/
theorem Opens.finish (h : Opens ts (k :: ks)) : Opens (ts ++ [.ofCommand .loopEnd]) ks := by
  cases h with
  | enter h inner =>
      have closed := h.append (.loop inner .done)
      simpa [Block.tokens_loop, Block.tokens_done] using closed

theorem Opens.read (h : Opens ts ks) : openBehind? 0 [] ts = some ks := by
  induction h with
  | block b => exact openBehind?_tokens 0 [] b
  | enter _ b ih =>
      rw [openBehind?_append, ih, Option.bind_some, openBehind?_start, openBehind?_tokens,
        Nat.zero_add]

theorem Opens.lt (h : Opens ts ks) (mem : k ∈ ks) : k < ts.length := by
  simpa using place_of_openBehind? h.read mem

/-- Inner loops start behind outer ones. -/
theorem Opens.descending (h : Opens ts ks) : ks.Pairwise (· > ·) := by
  induction h with
  | block b => exact .nil
  | enter h b ih => exact .cons (fun _ mem => h.lt mem) ih

theorem Opens.start (h : Opens ts ks) (mem : k ∈ ks)
    : ts[k]? = some (.ofCommand .loopStart) := by
  induction h with
  | block b => cases mem
  | enter h b ih =>
      rcases List.mem_cons.mp mem with rfl | mem
      · simp
      · rw [List.getElem?_append_left (h.lt mem)]
        exact ih mem

/-- A loop start among tokens that has no partner among them. -/
def Unclosed (ts : List Token) (k : Nat) : Prop :=
  ts[k]? = some (.ofCommand .loopStart) ∧ ∀ j, ¬Partners ts k j

/-- A loop start is open or has a partner, by induction on the shape. -/
theorem Opens.partner (h : Opens ts ks) (here : ts[k]? = some (.ofCommand .loopStart))
    (closed : k ∉ ks)
    : ∃ j, Partners ts k j := by
  induction h with
  | block b => exact partner_of_start here
  | @enter ts ks h b ih =>
      rw [List.mem_cons, not_or] at closed
      by_cases inside : k < ts.length
      · rw [List.getElem?_append_left inside] at here
        obtain ⟨j, partners⟩ := ih here closed.2
        have larger := partners.within [] (.ofCommand .loopStart :: b.tokens)
        simp only [List.nil_append, List.length_nil, Nat.zero_add] at larger
        exact ⟨j, larger⟩
      · obtain ⟨past, rfl⟩ := Nat.exists_eq_add_of_le (Nat.not_lt.mp inside)
        rw [List.getElem?_append_right (by omega), Nat.add_sub_cancel_left] at here
        cases past with
        | zero => exact absurd rfl closed.1
        | succ past =>
            obtain ⟨j, partners⟩ := partner_of_start (b := b) (by simpa using here)
            have larger := partners.within (ts ++ [.ofCommand .loopStart]) []
            simp only [List.append_nil, List.append_assoc, List.cons_append, List.nil_append,
              List.length_append, List.length_cons, List.length_nil] at larger
            exact ⟨_, by simpa [Nat.add_assoc, Nat.add_comm 1] using larger⟩

/-- The open loops are the loop starts without a partner. -/
theorem Opens.unclosed_iff (h : Opens ts ks) : Unclosed ts k ↔ k ∈ ks := by
  constructor
  · rintro ⟨here, alone⟩
    by_contra closed
    obtain ⟨j, partners⟩ := h.partner here closed
    exact alone j partners
  · intro mem
    exact ⟨h.start mem, fun j => not_partners_of_open h.read mem⟩

/-- Commands that match the open loops make a block of the tokens, by induction on the commands. -/
theorem Opens.block_of_balanced (h : Opens ts ks) {cs : List Command}
    (balance : balanced ks.length cs = true)
    : ∃ b : Block, ts ++ cs.map .ofCommand = b.tokens := by
  induction cs generalizing ts ks with
  | nil =>
      cases h with
      | block b => exact ⟨b, List.append_nil _⟩
      | enter h b => simp [balanced] at balance
  | cons c rest ih =>
      rw [List.map_cons, List.append_cons]
      rcases command_cases c with rfl | rfl | ⟨a, rfl⟩
      · exact ih (h.enter .done) balance
      · cases ks with
        | nil => simp [balanced] at balance
        | cons k outer => exact ih h.finish balance
      · rw [balanced_cons (action_ne_bracket a).1 (action_ne_bracket a).2] at balance
        exact ih (h.append (.action a .done)) balance

/-- The commands whose brackets match are those of blocks. -/
theorem block_of_balanced {cs : List Command} (balance : balanced 0 cs = true)
    : ∃ b : Block, cs = b.commands := by
  obtain ⟨b, tokens⟩ := Opens.block_of_balanced (.block .done) balance
  exact ⟨b, (List.map_inj_right fun _ _ => ofCommand_injective).mp tokens⟩

end TapeIL.Tape
