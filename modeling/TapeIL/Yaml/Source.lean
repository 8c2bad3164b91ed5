import TapeIL.Yaml.Token

/-!
Reading the texts of scalars: plain ones, quoted ones and blocks. Where a scalar goes over several
lines, a single line end counts as a blank and further ones count as themselves.
-/

namespace TapeIL.Yaml

def isGap (c : Char) : Bool :=
  isBlankOrTab c || isBreak c

/-- What blanks and line ends between two words of a scalar stand for. -/
def joinGap (gap : List Char) : List Char :=
  match gap.filter isBreak with
  | [] => gap
  | first :: further =>
      if first ≠ '\n' then first :: further
      else if further.isEmpty then [' ']
      else further

/-- Whether a tab stands before the column `least` of a line. The first line has no column. -/
def tabBefore (least : Int) : Option Nat → List Char → Bool
  | _, [] => false
  | column, c :: rest =>
      if isBreak c then tabBefore least (some 0) rest
      else
        match column with
        | none => tabBefore least none rest
        | some n => (c == '\t' && decide ((n : Int) < least)) || tabBefore least (some (n + 1)) rest

/-- The next word of a plain scalar. -/
def plainWord (inFlow : Bool) : List Char → List Char
  | [] => []
  | c :: rest =>
      if isGap c || (c == ':' && blankOrEnd rest)
          || (inFlow && [',', '?', '[', ']', '\x7b', '\x7d'].contains c) then []
      else c :: plainWord inFlow rest

/--
A plain scalar from a word on. The answer tells whether a line end stands behind the scalar.
`gap` is what stands before the word, and `indent` is the indentation of what holds the scalar.
-/
def plainFrom (inFlow : Bool) (indent : Int) :
    (fuel : Nat) → (gap : List Char) → Cursor → Result (List Char × Bool × Cursor)
  | 0, gap, cur => .ok ([], gap.any isBreak, cur)
  | fuel + 1, gap, cur =>
      if cur.atDocumentMark || cur.rest.head? == some '#' then .ok ([], gap.any isBreak, cur)
      else
        let word := plainWord inFlow cur.rest
        if word.isEmpty then .ok ([], gap.any isBreak, cur)
        else
          let cur := cur.pass word
          let next := cur.rest.takeWhile isGap
          if tabBefore (indent + 1) none next then malformed
          else
            let behind := cur.pass next
            if !inFlow && decide ((behind.column : Int) ≤ indent) then
              .ok (joinGap gap ++ word, next.any isBreak, behind)
            else
              match plainFrom inFlow indent fuel next behind with
              | .ok (more, broken, behind) => .ok (joinGap gap ++ word ++ more, broken, behind)
              | .error e => .error e

/-- The next word between single quotes, and how many characters it takes. -/
def singleWord : List Char → List Char × Nat
  | '\'' :: '\'' :: rest =>
      let (word, n) := singleWord rest
      ('\'' :: word, n + 2)
  | c :: rest =>
      if c = '\'' || isGap c then ([], 0)
      else
        let (word, n) := singleWord rest
        (c :: word, n + 1)
  | [] => ([], 0)

/-- The character that a letter behind a backslash stands for. -/
def unescape? (c : Char) : Option Char :=
  match c with
  | '0' => some '\x00'
  | 'a' => some '\x07'
  | 'b' => some '\x08'
  | 't' | '\t' => some '\t'
  | 'n' => some '\n'
  | 'v' => some '\x0B'
  | 'f' => some '\x0C'
  | 'r' => some '\r'
  | 'e' => some '\x1B'
  | ' ' => some ' '
  | '"' => some '"'
  | '\'' => some '\''
  | '\\' => some '\\'
  | 'N' => some '\u0085'
  | '_' => some '\u00A0'
  | 'L' => some '\u2028'
  | 'P' => some '\u2029'
  | _ => none

/-- How many hexadecimal digits follow a letter behind a backslash. -/
def escapeDigits? (c : Char) : Option Nat :=
  match c with
  | 'x' => some 2
  | 'u' => some 4
  | 'U' => some 8
  | _ => none

def hexDigit? (c : Char) : Option Nat :=
  if c.isDigit then some (c.toNat - 48)
  else if 'a' ≤ c ∧ c ≤ 'f' then some (c.toNat - 87)
  else if 'A' ≤ c ∧ c ≤ 'F' then some (c.toNat - 55)
  else none

/--
The next word between double quotes, how many characters it takes, and whether it ends with an
escaped line end. `digits` hexadecimal digits are still to come, and `code` is the value of those
before them.
-/
def doubleWord : (digits code : Nat) → List Char → Result (List Char × Nat × Bool)
  | 0, _, [] => .ok ([], 0, false)
  | 0, _, ['\\'] => malformed
  | 0, _, '\\' :: c :: rest =>
      if isBreak c then .ok ([], 2, true)
      else
        match unescape? c, escapeDigits? c with
        | some value, _ => do
            let (word, n, opened) ← doubleWord 0 0 rest
            return (value :: word, n + 2, opened)
        | none, some digits => do
            let (word, n, opened) ← doubleWord digits 0 rest
            return (word, n + 2, opened)
        | none, none => malformed
  | 0, _, c :: rest =>
      if c = '"' || isGap c then .ok ([], 0, false)
      else do
        let (word, n, opened) ← doubleWord 0 0 rest
        return (c :: word, n + 1, opened)
  | _ + 1, _, [] => malformed
  | digits + 1, code, c :: rest =>
      match hexDigit? c with
      | none => malformed
      | some d =>
          let code := code * 16 + d
          if digits = 0 then
            if code.isValidChar then do
              let (word, n, opened) ← doubleWord 0 0 rest
              return (Char.ofNat code :: word, n + 1, opened)
            else malformed
          else do
            let (word, n, opened) ← doubleWord digits code rest
            return (word, n + 1, opened)

/-- A quoted scalar from behind its first quote to behind its last. -/
def quotedFrom (double : Bool) : (fuel : Nat) → Cursor → Result (List Char × Cursor)
  | 0, _ => malformed
  | fuel + 1, cur =>
      if cur.atDocumentMark || cur.rest.isEmpty then malformed
      else do
        let (word, n, opened) ←
          if double then doubleWord 0 0 cur.rest
          else
            let (word, n) := singleWord cur.rest
            pure (word, n, false)
        let cur := cur.skip n
        if cur.rest.head? == some (if double then '"' else '\'') then return (word, cur.skip 1)
        else
          let gap := cur.rest.takeWhile isGap
          let (more, cur) ← quotedFrom double fuel (cur.pass gap)
          return (word ++ (if opened then gap.filter isBreak else joinGap gap) ++ more, cur)

/-- What becomes of the line ends behind a block. -/
inductive Chomping where
  | clip
  | strip
  | keep
deriving DecidableEq, Repr, Inhabited

def chomping? : Option Char → Option Chomping
  | some '-' => some .strip
  | some '+' => some .keep
  | _ => none

/-- A digit that tells how far a block is indented. Zero is none. -/
def increment? (c : Option Char) : Result (Option Nat) :=
  match c with
  | some c =>
      if c = '0' then malformed
      else if c.isDigit then .ok (some (c.toNat - 48))
      else .ok none
  | none => .ok none

/-- The marks behind the start of a block, in either order, and how many they are. -/
def blockMarks (rest : List Char) : Result (Chomping × Nat × Nat) := do
  match chomping? rest.head? with
  | some chomping =>
      match ← increment? rest.tail.head? with
      | some n => return (chomping, n, 2)
      | none => return (chomping, 0, 1)
  | none =>
      match ← increment? rest.head? with
      | some n =>
          match chomping? rest.tail.head? with
          | some chomping => return (chomping, n, 2)
          | none => return (.clip, n, 1)
      | none => return (.clip, 0, 0)

/--
Moves past empty lines and the indentation of the line behind them. An `indent` of zero is not
known yet. The answer holds the line ends and the largest column.
-/
def blockGap (indent : Nat) : (fuel : Nat) → Cursor → Result (List Char × Nat × Cursor)
  | 0, cur => .ok ([], cur.column, cur)
  | fuel + 1, cur =>
      let blanks := cur.rest.takeWhile (· == ' ')
      let cur := cur.pass (if indent = 0 then blanks else blanks.take (indent - cur.column))
      match cur.rest with
      | [] => .ok ([], cur.column, cur)
      | c :: _ =>
          if c == '\t' && (indent == 0 || cur.column < indent) then malformed
          else if isBreak c then do
            let (breaks, widest, behind) ← blockGap indent fuel (cur.skip 1)
            return (c :: breaks, max cur.column widest, behind)
          else .ok ([], cur.column, cur)

/--
The lines of a block, then the line end and the empty lines behind them. `lead` is the line end
before the next line, `breaks` are the empty lines before it, and `blank` tells whether the line
before started with a blank.
-/
def blockLines (literal : Bool) (indent : Nat) :
    (fuel : Nat) → (lead breaks : List Char) → (blank : Bool) → Cursor →
      Result (List Char × List Char × List Char × Cursor)
  | 0, lead, breaks, _, cur => .ok ([], lead, breaks, cur)
  | fuel + 1, lead, breaks, blank, cur =>
      if cur.column ≠ indent || cur.rest.isEmpty then .ok ([], lead, breaks, cur)
      else do
        let startsBlank := (cur.rest.head?.map isBlankOrTab).getD false
        let joint :=
          if !literal && lead == ['\n'] && !blank && !startsBlank then
            if breaks.isEmpty then [' '] else []
          else lead
        let line := cur.rest.takeWhile fun c => !isBreak c
        let cur := cur.pass line
        let next := cur.rest.take 1
        let (further, _, cur) ← blockGap indent (fuel + 1) (cur.pass next)
        let (more, last) ← blockLines literal indent fuel next further startsBlank cur
        return (joint ++ breaks ++ line ++ more, last)

/-- A block from behind its first character on, inside something with a given indentation. -/
def blockFrom (literal : Bool) (indent : Int) (fuel : Nat) (cur : Cursor) :
    Result (List Char × Cursor) := do
  let (chomping, increment, marks) ← blockMarks cur.rest
  let cur := (cur.skip marks).skipWhile isBlankOrTab
  let cur := if cur.rest.head? == some '#' then cur.skipLine else cur
  if !lineEnds cur.rest then malformed
  else
    let known := if increment = 0 then 0 else indent.toNat + increment
    let (breaks, widest, cur) ← blockGap known fuel (cur.skip 1)
    let width := if known = 0 then max (max widest (indent + 1).toNat) 1 else known
    let (lines, lead, further, cur) ← blockLines literal width fuel [] breaks false cur
    return (lines
      ++ (if chomping = .strip then [] else lead)
      ++ (if chomping = .keep then further else []), cur)

end TapeIL.Yaml
