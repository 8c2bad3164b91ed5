import TapeIL.Yaml.Write

/-!
Tokens of a document, and the places that they are read from.
-/

namespace TapeIL.Yaml

/-- A document, or a part of it, is not well formed. -/
structure Malformed where
deriving DecidableEq, Repr, Inhabited

abbrev Result (α : Type) := Except Malformed α

def malformed {α : Type} : Result α :=
  .error {}

inductive Token.Kind where
  | versionDirective (major minor : Nat)
  | tagDirective (handle start : Bytes)
  | documentStart
  | documentEnd
  | sequenceStart
  | mappingStart
  | blockEnd
  | openList
  | closeList
  | openMap
  | closeMap
  | item
  | comma
  | key
  | value
  | alias (name : Bytes)
  | anchor (name : Bytes)
  | tag (handle suffix : Bytes)
  | scalar (plain : Bool) (value : Bytes)
  | streamEnd
deriving DecidableEq, Repr, Inhabited

/-- A token and the line that it starts on. Lines are counted from one. -/
structure Token where
  kind : Token.Kind
  line : Nat
deriving DecidableEq, Repr, Inhabited

/-- What is left of a document, and where that starts. -/
structure Cursor where
  rest : List Char
  index : Nat := 0
  line : Nat := 1
  column : Nat := 0
deriving DecidableEq, Repr, Inhabited

def utf8 (cs : List Char) : Bytes :=
  cs.flatMap String.utf8EncodeChar

/-- Whether a blank, the end of the line or the end of the document is next. -/
def blankOrEnd : List Char → Bool
  | [] => true
  | c :: _ => isBlankOrTab c || isBreak c

/-- Whether the end of the line or of the document is next. -/
def lineEnds : List Char → Bool
  | [] => true
  | c :: _ => isBreak c

namespace Cursor

/-- Moves past characters, which are the next ones. -/
def pass (cur : Cursor) : List Char → Cursor
  | [] => cur
  | c :: passed =>
      let rest := cur.rest.tail
      if isBreak c then
        pass { rest, index := cur.index + 1, line := cur.line + 1, column := 0 } passed
      else pass { cur with rest, index := cur.index + 1, column := cur.column + 1 } passed

/-- Moves past a number of characters. -/
def skip (n : Nat) (cur : Cursor) : Cursor :=
  cur.pass (cur.rest.take n)

/-- Moves past the characters of one class. -/
def skipWhile (p : Char → Bool) (cur : Cursor) : Cursor :=
  cur.pass (cur.rest.takeWhile p)

/-- Moves to the end of the line. -/
def skipLine (cur : Cursor) : Cursor :=
  cur.skipWhile fun c => !isBreak c

/-- Whether a mark between documents is next. -/
def atDocumentMark (cur : Cursor) : Bool :=
  cur.column == 0 && match cur.rest with
    | '-' :: '-' :: '-' :: rest | '.' :: '.' :: '.' :: rest => blankOrEnd rest
    | _ => false

end Cursor
end TapeIL.Yaml
