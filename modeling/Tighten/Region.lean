import Tighten.Position
import Tighten.Text.Lines

/-
Replacing a region of a document.

The region is given by its first position and the position just past its last one.  Both must
exist: the line must be one of the document's lines and the column at most one past the line's
last character, where the newline stands.  Everything outside the region is carried over.
-/
namespace Tighten

/-- Why a region does not fit a document. -/
inductive RegionError where
  | pastLastLine (line lines : Nat)
  | pastLineEnd (column line length : Nat)
  | reversed (start stop : Position)
deriving DecidableEq, Repr

/-- What is wrong, in words. -/
def RegionError.message : RegionError → String
  | .pastLastLine line lines => s!"line {line} is past the end of a {lines}-line document"
  | .pastLineEnd column line length =>
    s!"column {column} is past the end of line {line} ({length} characters)"
  | .reversed start stop => s!"region end {stop.toText} precedes start {start.toText}"

namespace Region

/-- The number of characters before a position, newlines included. -/
def offset (lines : List (List Char)) (p : Position) : Except RegionError Nat :=
  match lines[p.line - 1]? with
  | none => .error (.pastLastLine p.line lines.length)
  | some line =>
    if line.length + 1 < p.column then .error (.pastLineEnd p.column p.line line.length)
    else
      let above := (lines.take (p.line - 1)).map fun l => l.length + 1
      .ok (above.foldr (· + ·) 0 + p.column - 1)

/-- The characters of a document with those from `start` up to `stop` replaced. -/
def replaceChars (document : List Char) (start stop : Position) (replacement : List Char) :
    Except RegionError (List Char) := do
  let lines := Text.lines document
  let begin ← offset lines start
  let finish ← offset lines stop
  if finish < begin then throw (.reversed start stop)
  return document.take begin ++ replacement ++ document.drop finish

/-- The document with the text from `start` up to `stop` replaced.  Where the two coincide nothing
is removed and the replacement is inserted. -/
def replace (document : String) (start stop : Position) (replacement : String) :
    Except RegionError String :=
  (replaceChars document.toList start stop replacement.toList).map String.ofList

end Region

end Tighten
