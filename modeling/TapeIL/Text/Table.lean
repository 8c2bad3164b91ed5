import TapeIL.Text.Width

/-!
Tables drawn with `+`, `-` and `|`. Columns are as wide as their widest cell; a column of numbers
is aligned to the right, every other column to the left.
-/

namespace TapeIL

/-- A cell of a table. -/
inductive Table.Cell where
  | number (digits : Bytes)
  | words (content : Bytes)
deriving DecidableEq, Repr, Inhabited

structure Table where
  title : Bytes := []
  header : List Bytes
  rows : List (List Table.Cell) := []
deriving DecidableEq, Repr, Inhabited

namespace Table

def Cell.content : Cell → Bytes
  | .number digits => digits
  | .words content => content

def Cell.isNumber : Cell → Bool
  | .number _ => true
  | .words _ => false

/-- Writes `line` over `old`, from the start, leaving what is longer of the old one. -/
def overwrite (old line : List Glyph) : List Glyph :=
  line ++ old.drop line.length

/-- What remains visible of a line with carriage returns in it. -/
def visible (line : Bytes) : Bytes :=
  if line.contains 13 then
    Glyph.toBytes ((line.splitOn 13).foldl (fun old part => overwrite old (Glyph.ofBytes part)) [])
  else line

/-- A text in which a line feed stands for each carriage return and line feed together. -/
def joinReturns : Bytes → Bytes
  | [] => []
  | [b] => [b]
  | a :: b :: rest =>
      if a = 13 ∧ b = 10 then joinReturns (b :: rest) else a :: joinReturns (b :: rest)

/-- The lines of a cell, with four spaces for each tab. -/
def cellLines (content : Bytes) : List Bytes :=
  let spaced := content.flatMap fun b => if b = 9 then text "    " else [b]
  ((joinReturns spaced).splitOn 10).map visible

def widest (lines : List Bytes) : Nat :=
  (lines.map Bytes.width).foldl max 0

def spaces (n : Nat) : Bytes :=
  List.replicate n (Bytes.code ' ')

def padRight (width : Nat) (line : Bytes) : Bytes :=
  line ++ spaces (width - line.width)

def padLeft (width : Nat) (line : Bytes) : Bytes :=
  spaces (width - line.width) ++ line

/-- The rows as lists of lines for each cell, the header being the first. -/
def lines (t : Table) : List (List (List Bytes)) :=
  (t.header.map fun name => cellLines name.upperAscii)
    :: t.rows.map fun row => row.map fun cell => cellLines cell.content

/-- The width of each column. -/
def widths (t : Table) : List Nat :=
  (List.range t.header.length).map fun column =>
    (t.lines.map fun row => widest (row[column]?.getD [])).foldl max 0

/-- Whether each column is aligned to the right. -/
def numeric (t : Table) : List Bool :=
  (List.range t.header.length).map fun column =>
    !t.rows.isEmpty && t.rows.all fun row => (row[column]?.map Cell.isNumber).getD false

/-- The line between rows. -/
def separator (widths : List Nat) : Bytes :=
  text "+" ++ widths.flatMap fun w => List.replicate (w + 2) (Bytes.code '-') ++ text "+"

/-- One printed line of a row. -/
def rowLine (columns : List (Nat × Bool)) (cells : List Bytes) : Bytes :=
  text "|" ++ (columns.zip cells).flatMap fun ((width, right), cell) =>
    text " " ++ (if right then padLeft width cell else padRight width cell) ++ text " |"

/-- All printed lines of a row, as many as its highest cell has. -/
def rowLines (columns : List (Nat × Bool)) (row : List (List Bytes)) : List Bytes :=
  let height := (row.map List.length).foldl max 1
  (List.range height).map fun i => rowLine columns (row.map fun cell => cell[i]?.getD [])

/-- A line under construction while a title is wrapped, and the lines before it, the last first. -/
structure Wrapped where
  finished : List Bytes := []
  line : List Glyph := []

namespace Wrapped

def breakLine (w : Wrapped) : Wrapped :=
  { finished := Glyph.toBytes w.line :: w.finished }

/-- Adds a glyph, on a new line if this one is full. -/
def put (width : Nat) (w : Wrapped) (g : Glyph) : Wrapped :=
  let w := if w.line.length < width then w else w.breakLine
  { w with line := w.line ++ [g] }

/-- Adds a word, with a space before it unless the line is empty. -/
def word (width : Nat) (w : Wrapped) (word : List Glyph) : Wrapped :=
  let w := if w.line.isEmpty then w else w.put width (.char ' ')
  word.foldl (put width) w

end Wrapped

/-- The lines of a title that is to fit into `width` columns. -/
def wrap (width : Nat) (title : Bytes) : List Bytes :=
  if title.width ≤ width then [title]
  else
    let words := (title.splitOn (Bytes.code ' ')).filter fun w => !w.isEmpty
    let count := words.length
    let wrapped := (words.mapIdx fun i w => (i, w)).foldl (fun (acc : Wrapped) (i, w) =>
      let acc := acc.word width (Glyph.ofBytes w)
      if acc.line.length == width && i + 1 < count then acc.breakLine else acc) {}
    (wrapped.breakLine.finished.reverse).map fun line =>
      ((line.dropWhile (· == 32)).reverse.dropWhile (· == 32)).reverse

def titleLines (t : Table) (rowWidth : Nat) : List Bytes :=
  if t.title.isEmpty then []
  else
    let inner := rowWidth - 4
    (text "+" ++ List.replicate (rowWidth - 2) (Bytes.code '-') ++ text "+")
      :: (wrap inner t.title).map fun line =>
        text "| " ++ padRight inner line ++ text " |"

/-- The table as text, without a line end behind its last line. -/
def toText (t : Table) : Bytes :=
  let widths := t.widths
  let columns := widths.zip t.numeric
  let line := separator widths
  let (header, rows) :=
    match t.lines with
    | [] => ([], [])
    | header :: rows => (header, rows)
  Bytes.join (text "\n")
    (t.titleLines line.length ++ [line] ++ rowLines columns header ++ [line]
      ++ rows.flatMap (rowLines columns) ++ [line])

end Table
end TapeIL
