import TapeIL.Yaml.Source

/-!
Cutting a document into tokens. Indentation becomes tokens that open and close blocks, and a key
of a mapping is marked once the colon behind it is found.
-/

namespace TapeIL.Yaml

/-- A place where a key of a mapping may have started. -/
structure KeyPlace where
  required : Bool
  token : Nat
  line : Nat
  index : Nat
  column : Nat
deriving DecidableEq, Repr, Inhabited

/-- The tokens so far, the newest first, and what decides about the next one. -/
structure Scanner where
  cursor : Cursor
  fuel : Nat
  levels : List Nat := []
  key? : Option KeyPlace := none
  outerKeys : List (Option KeyPlace) := []
  keyAllowed : Bool := true
  tokens : List Token := []
  count : Nat := 0
deriving DecidableEq, Repr, Inhabited

namespace Scanner

def inFlow (s : Scanner) : Bool :=
  !s.outerKeys.isEmpty

/-- The column of the innermost block, or minus one outside of all blocks. -/
def indent (s : Scanner) : Int :=
  match s.levels with
  | [] => -1
  | column :: _ => column

def emitAt (line : Nat) (kind : Token.Kind) (s : Scanner) : Scanner :=
  { s with tokens := ⟨kind, line⟩ :: s.tokens, count := s.count + 1 }

/-- Adds a token that starts at the cursor and takes `n` characters. -/
def emit (kind : Token.Kind) (n : Nat) (s : Scanner) : Scanner :=
  { s.emitAt s.cursor.line kind with cursor := s.cursor.skip n }

/-- Adds a token before the one with a given number. -/
def insert (number line : Nat) (kind : Token.Kind) (s : Scanner) : Scanner :=
  let later := s.count - number
  { s with
    tokens := s.tokens.take later ++ ⟨kind, line⟩ :: s.tokens.drop later
    count := s.count + 1 }

/-- Closes the blocks that start behind a column. -/
def closeBehind (column : Nat) (s : Scanner) : Scanner :=
  if s.inFlow then s
  else
    let closed := s.levels.takeWhile fun level => column < level
    closed.foldl (fun s _ => s.emitAt s.cursor.line .blockEnd)
      { s with levels := s.levels.drop closed.length }

def closeAll (s : Scanner) : Scanner :=
  if s.inFlow then s
  else s.levels.foldl (fun s _ => s.emitAt s.cursor.line .blockEnd) { s with levels := [] }

/-- How deep blocks may nest, and how deep brackets. -/
def maxDepth : Nat := 10000

/-- Opens a block at a column, if that is further in than the innermost block. -/
def openBlock (column number line : Nat) (kind : Token.Kind) (s : Scanner) : Result Scanner :=
  if s.inFlow || decide ((column : Int) ≤ s.indent) then .ok s
  else if maxDepth ≤ s.levels.length then malformed
  else .ok (insert number line kind { s with levels := column :: s.levels })

/-- Gives up the place where a key may have started. -/
def dropKey (s : Scanner) : Result Scanner :=
  match s.key? with
  | some key => if key.required then malformed else .ok { s with key? := none }
  | none => .ok s

/-- Notes that a key may start at the cursor. -/
def saveKey (s : Scanner) : Result Scanner :=
  if s.keyAllowed then do
    let place : KeyPlace :=
      { required := !s.inFlow && s.indent == s.cursor.column
        token := s.count
        line := s.cursor.line
        index := s.cursor.index
        column := s.cursor.column }
    let s ← s.dropKey
    return { s with key? := some place }
  else .ok s

/-- Whether a key may not end here: it stays on one line and is at most 1024 characters long. -/
def isStale (s : Scanner) (key : KeyPlace) : Bool :=
  key.line < s.cursor.line || key.index + 1024 < s.cursor.index

/-- Forgets a key that may no longer end. A key that has to be one is missing its colon. -/
def checkKey (s : Scanner) : Result Scanner :=
  match s.key? with
  | some key => if s.isStale key then s.dropKey else .ok s
  | none => .ok s

/-- Moves past blanks, comments and line ends. -/
def toNextToken : (fuel : Nat) → Scanner → Scanner
  | 0, s => s
  | fuel + 1, s =>
      let cur := s.cursor
      let cur := if cur.column == 0 && cur.rest.head? == some '\uFEFF' then cur.skip 1 else cur
      let tabs := s.inFlow || !s.keyAllowed
      let cur := cur.skipWhile fun c => c == ' ' || (tabs && c == '\t')
      let cur := if cur.rest.head? == some '#' then cur.skipLine else cur
      match cur.rest with
      | c :: _ =>
          if isBreak c then
            toNextToken fuel { s with
              cursor := cur.skip 1
              keyAllowed := s.keyAllowed || !s.inFlow }
          else { s with cursor := cur }
      | [] => { s with cursor := cur }

/-- The start of a list or a mapping in brackets. -/
def flowStart (kind : Token.Kind) (s : Scanner) : Result Scanner := do
  let s ← s.saveKey
  if maxDepth ≤ s.outerKeys.length then malformed
  else
    let s := { s with key? := none, outerKeys := s.key? :: s.outerKeys, keyAllowed := true }
    return s.emit kind 1

def flowEnd (kind : Token.Kind) (s : Scanner) : Result Scanner := do
  let s ← s.dropKey
  let s := match s.outerKeys with
    | key :: outer => { s with key? := key, outerKeys := outer }
    | [] => s
  return { s with keyAllowed := false }.emit kind 1

def comma (s : Scanner) : Result Scanner := do
  let s ← s.dropKey
  return { s with keyAllowed := true }.emit .comma 1

/-- A dash. In a list in brackets it is left to the grammar to refuse it. -/
def item (s : Scanner) : Result Scanner := do
  if !s.inFlow && !s.keyAllowed then malformed
  else
    let s ← s.openBlock s.cursor.column s.count s.cursor.line .sequenceStart
    let s ← s.dropKey
    return { s with keyAllowed := true }.emit .item 1

/-- A question mark. -/
def explicitKey (s : Scanner) : Result Scanner := do
  if !s.inFlow && !s.keyAllowed then malformed
  else
    let s ← s.openBlock s.cursor.column s.count s.cursor.line .mappingStart
    let s ← s.dropKey
    return { s with keyAllowed := !s.inFlow }.emit .key 1

/-- A colon. What started at the noted place is the key that it belongs to. -/
def colon (s : Scanner) : Result Scanner := do
  let s ← s.checkKey
  match s.key? with
  | some key =>
      let s := s.insert key.token key.line .key
      let s ← s.openBlock key.column key.token key.line .mappingStart
      return { s with key? := none, keyAllowed := false }.emit .value 1
  | none =>
      if !s.inFlow && !s.keyAllowed then malformed
      else
        let s ← s.openBlock s.cursor.column s.count s.cursor.line .mappingStart
        return { s with keyAllowed := !s.inFlow }.emit .value 1

def isWordChar (c : Char) : Bool :=
  c.isAlphanum || c == '_' || c == '-'

/-- The name of an anchor or an alias. -/
def reference (kind : Bytes → Token.Kind) (s : Scanner) : Result Scanner := do
  let s ← s.saveKey
  let rest := s.cursor.rest.tail
  let name := rest.takeWhile isWordChar
  let ended := match rest.dropWhile isWordChar with
    | [] => true
    | c :: _ => isGap c || ['?', ':', ',', ']', '\x7d', '%', '@', Char.ofNat 0x60].contains c
  if name.isEmpty || !ended then malformed
  else return { s with keyAllowed := false }.emit (kind (utf8 name)) (name.length + 1)

def isUriChar (c : Char) : Bool :=
  isWordChar c || [';', '/', '?', ':', '@', '&', '=', '+', '$', ',', '.', '!', '~', '*', '\'', '(',
    ')', '[', ']'].contains c

/-- A part of the name of a tag, with bytes in hexadecimal digits, and how long it is. -/
def uri : List Char → Result (Bytes × Nat)
  | '%' :: a :: b :: rest =>
      match hexDigit? a, hexDigit? b with
      | some high, some low => do
          let (bytes, n) ← uri rest
          return ((high * 16 + low).toUInt8 :: bytes, n + 3)
      | _, _ => malformed
  | c :: rest =>
      if c = '%' then malformed
      else if isUriChar c then do
        let (bytes, n) ← uri rest
        return (String.utf8EncodeChar c ++ bytes, n + 1)
      else .ok ([], 0)
  | [] => .ok ([], 0)

/-- Whether the bytes that were given in hexadecimal digits make up characters. -/
def uriText (rest : List Char) : Result (Bytes × Nat) := do
  let (bytes, n) ← uri rest
  if bytes.isUtf8 then return (bytes, n) else malformed

/-- An exclamation mark, the word behind it, and an exclamation mark behind that if there is one. -/
def handle (rest : List Char) : List Char :=
  let word := rest.tail.takeWhile isWordChar
  '!' :: word ++ if (rest.drop (word.length + 1)).head? == some '!' then ['!'] else []

/-- The handle and the suffix of a tag, and how long it is. -/
def tagParts (rest : List Char) : Result (Bytes × Bytes × Nat) := do
  match rest with
  | '!' :: '<' :: inside =>
      let (name, n) ← uriText inside
      if name.isEmpty || (inside.drop n).head? != some '>' then malformed
      else return ([], name, n + 3)
  | _ =>
      let first := handle rest
      let (suffix, n) ← uriText (rest.drop first.length)
      let length := first.length + n
      if 1 < first.length && first.getLast? == some '!' then
        if suffix.isEmpty then malformed else return (utf8 first, suffix, length)
      else
        let suffix := utf8 first.tail ++ suffix
        if suffix.isEmpty then return ([], text "!", length)
        else return (text "!", suffix, length)

def tag (s : Scanner) : Result Scanner := do
  let s ← s.saveKey
  let (handle, suffix, n) ← tagParts s.cursor.rest
  if blankOrEnd (s.cursor.rest.drop n) then
    return { s with keyAllowed := false }.emit (.tag handle suffix) n
  else malformed

def block (literal : Bool) (s : Scanner) : Result Scanner := do
  let s ← s.dropKey
  let (value, cursor) ← blockFrom literal s.indent s.fuel (s.cursor.skip 1)
  return { s.emit (.scalar false (utf8 value)) 0 with cursor, keyAllowed := true }

def quoted (double : Bool) (s : Scanner) : Result Scanner := do
  let s ← s.saveKey
  let (value, cursor) ← quotedFrom double s.fuel (s.cursor.skip 1)
  return { s.emit (.scalar false (utf8 value)) 0 with cursor, keyAllowed := false }

def plain (s : Scanner) : Result Scanner := do
  let s ← s.saveKey
  let (value, broken, cursor) ← plainFrom s.inFlow s.indent s.fuel [] s.cursor
  return { s.emit (.scalar true (utf8 value)) 0 with cursor, keyAllowed := broken }

/-- A number of at most nine digits, and how long it is. -/
def versionNumber (rest : List Char) : Result (Nat × Nat) :=
  let digits := rest.takeWhile Char.isDigit
  if digits.isEmpty || 9 < digits.length then malformed
  else .ok (Bytes.digitsValue (utf8 digits), digits.length)

/-- What stands behind the name of a directive, and the cursor behind that. -/
def directiveValue (name : List Char) (cur : Cursor) : Result (Token.Kind × Cursor) := do
  let cur := cur.skipWhile isBlankOrTab
  if name = ['Y', 'A', 'M', 'L'] then
    let (major, n) ← versionNumber cur.rest
    let cur := cur.skip n
    if cur.rest.head? != some '.' then malformed
    else
      let cur := cur.skip 1
      let (minor, n) ← versionNumber cur.rest
      return (.versionDirective major minor, cur.skip n)
  else if name = ['T', 'A', 'G'] then
    if cur.rest.head? != some '!' then malformed
    else
      let handle := handle cur.rest
      let cur := cur.skip handle.length
      if handle.getLast? != some '!' || !(cur.rest.head?.map isBlankOrTab).getD false then malformed
      else
        let cur := cur.skipWhile isBlankOrTab
        let (start, n) ← uriText cur.rest
        let cur := cur.skip n
        if start.isEmpty || !blankOrEnd cur.rest then malformed
        else return (.tagDirective (utf8 handle) start, cur)
  else malformed

def directive (s : Scanner) : Result Scanner := do
  let s ← s.closeAll.dropKey
  let rest := s.cursor.rest.tail
  let name := rest.takeWhile isWordChar
  if name.isEmpty || !blankOrEnd (rest.drop name.length) then malformed
  else
    let (kind, cur) ← directiveValue name (s.cursor.skip (name.length + 1))
    let cur := cur.skipWhile isBlankOrTab
    let cur := if cur.rest.head? == some '#' then cur.skipLine else cur
    if lineEnds cur.rest then
      return { s.emit kind 0 with cursor := cur.skip 1, keyAllowed := false }
    else malformed

def documentMark (kind : Token.Kind) (s : Scanner) : Result Scanner := do
  let s ← s.closeAll.dropKey
  return { s with keyAllowed := false }.emit kind 3

/-- The characters that no plain scalar starts with. -/
def indicators : List Char :=
  [',', '[', ']', '\x7b', '\x7d', '#', '&', '*', '!', '|', '>', '\'', '"', '%', '@',
    Char.ofNat 0x60]

/-- Whether a plain scalar may start with `c` before `rest`. -/
def startsPlain (inFlow : Bool) (c : Char) (rest : List Char) : Bool :=
  if c == '-' then !blankOrEnd rest
  else if c == '?' || c == ':' then !inFlow && !blankOrEnd rest
  else !(isGap c || indicators.contains c)

/-- Adds the token that starts with `c`. -/
def tokenAt (s : Scanner) (c : Char) (rest : List Char) : Result Scanner :=
  if s.cursor.column == 0 && c == '%' then s.directive
  else if s.cursor.atDocumentMark then
    s.documentMark (if c == '-' then .documentStart else .documentEnd)
  else
    match c with
    | '[' => s.flowStart .openList
    | '\x7b' => s.flowStart .openMap
    | ']' => s.flowEnd .closeList
    | '\x7d' => s.flowEnd .closeMap
    | ',' => s.comma
    | '*' => s.reference .alias
    | '&' => s.reference .anchor
    | '!' => s.tag
    | '\'' => s.quoted false
    | '"' => s.quoted true
    | _ =>
        if c == '-' && blankOrEnd rest then s.item
        else if c == '?' && (s.inFlow || blankOrEnd rest) then s.explicitKey
        else if c == ':' && (s.inFlow || blankOrEnd rest) then s.colon
        else if c == '|' && !s.inFlow then s.block true
        else if c == '>' && !s.inFlow then s.block false
        else if startsPlain s.inFlow c rest then s.plain
        else malformed

/-- Adds the next token, with the tokens that close blocks before it. -/
def next (s : Scanner) : Result Scanner := do
  let s := s.toNextToken s.fuel
  let s ← if s.inFlow then pure s else s.checkKey
  let s := s.closeBehind s.cursor.column
  match s.cursor.rest with
  | [] =>
      let s ← s.closeAll.dropKey
      return s.emit .streamEnd 0
  | c :: rest => s.tokenAt c rest

end Scanner

/-- The tokens of a document. If they are not all, what follows them is malformed. -/
structure Tokens where
  list : List Token
  complete : Bool
deriving DecidableEq, Repr, Inhabited

namespace Tokens

def scan : (fuel : Nat) → Scanner → Tokens
  | 0, s => ⟨s.tokens.reverse, true⟩
  | fuel + 1, s =>
      match s.next with
      | .error _ => ⟨s.tokens.reverse, false⟩
      | .ok next =>
          if s.cursor.rest.isEmpty then ⟨next.tokens.reverse, true⟩ else scan fuel next

/-- Cuts characters into tokens. Each token but the last takes a character at least. -/
def ofCharacters (cs : List Char) : Tokens :=
  let fuel := cs.length + 2
  scan fuel { cursor := { rest := cs }, fuel }

end Tokens
end TapeIL.Yaml
