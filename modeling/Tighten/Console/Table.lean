import Tighten.Text.Width

/-
Tables for the console.

A column is as wide as its widest cell, with one space on either side.  The heading stands between
heavy lines, the rows below it between light ones, and the title is centred over the table; where
the spaces around it are not even, the right side has one more.
-/
namespace Tighten.Console

/-- Where the text of a column stands. -/
inductive Align where
  | left
  | right
deriving DecidableEq, Repr

/-- A column: its heading and where its text stands. -/
structure Column where
  heading : List Char
  align : Align
deriving DecidableEq, Repr

/-- A table; every row has a cell for each column. -/
structure Table where
  title : List Char
  columns : List Column
  rows : List (List (List Char))
deriving DecidableEq, Repr

/-- That many spaces. -/
def spaces (n : Nat) : List Char := List.replicate n ' '

/-- A text in a field of some width. -/
def Align.pad (align : Align) (width : Nat) (text : List Char) : List Char :=
  let blank := spaces (width - Text.width text)
  match align with
  | .left => text ++ blank
  | .right => blank ++ text

/-- A text in the middle of a field of some width. -/
def centred (width : Nat) (text : List Char) : List Char :=
  let blank := width - Text.width text
  spaces (blank / 2) ++ text ++ spaces (blank - blank / 2)

/-- Parts with a mark before them, between them and after them. -/
def fence (first between last : Char) (parts : List (List Char)) : List Char :=
  first :: [between].intercalate parts ++ [last]

namespace Table

/-- The width of each column. -/
def widths (t : Table) : List Nat :=
  t.columns.zipIdx.map fun (c, i) =>
    (t.rows.map fun row => Text.width (row.getD i [])).foldl max (Text.width c.heading)

/-- A line across the table. -/
def rule (t : Table) (first line between last : Char) : List Char :=
  fence first between last (t.widths.map fun w => List.replicate (w + 2) line)

/-- A row of cells between vertical lines. -/
def row (t : Table) (bar : Char) (cells : List (List Char)) : List Char :=
  let padded := ((t.columns.zip t.widths).zip cells).map fun ((c, w), text) =>
    ' ' :: c.align.pad w text ++ [' ']
  fence bar bar bar padded

/-- The lines of the table, the title first. -/
def lines (t : Table) : List (List Char) :=
  let top := t.rule '┏' '━' '┳' '┓'
  [centred (Text.width top) t.title, top,
    t.row '┃' (t.columns.map fun c => c.heading), t.rule '┡' '━' '╇' '┩'] ++
    t.rows.map (t.row '│') ++ [t.rule '└' '─' '┴' '┘']

/-- What the table prints. -/
def toText (t : Table) : String :=
  String.ofList (t.lines.flatMap fun l => l ++ ['\n'])

end Table

end Tighten.Console
