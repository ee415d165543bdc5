import Tighten.Field
import Tighten.Span
import Tighten.Visibility

/-
Positions, spans and narrowings given as JSON.

A span names its start before its stop, and a bad start is reported alone: the stop is looked at
only once the start is known to be a position.
-/
namespace Tighten

namespace Position

/-- The position with the given line and column, or every field that is not a whole number from
one on. -/
def read (line column : Json) : Except (List FieldError) Position :=
  match Field.wholeFrom 1 line, Field.wholeFrom 1 column with
  | .ok l, .ok c => .ok ⟨l.val, c.val, l.property, c.property⟩
  | .ok _, .error f => .error [⟨["column"], f, column⟩]
  | .error f, .ok _ => .error [⟨["line"], f, line⟩]
  | .error f, .error g => .error [⟨["line"], f, line⟩, ⟨["column"], g, column⟩]

/-- The position of a byte offset that lies `byteColumn` bytes into the row counted from zero. -/
def readPoint (source : List UInt8) (offset row byteColumn : Int) :
    Except (List FieldError) Position :=
  read (.int (row + 1)) (.int (columnAt source offset byteColumn))

end Position

/-- Why a span was refused: one of its ends is no position, or they are in the wrong order. -/
inductive SpanFault where
  | position (errors : List FieldError)
  | reversed (error : ReversedSpan)
deriving Repr

/-- The span between two positions given by line and column. -/
def Span.read (startLine startColumn stopLine stopColumn : Json) : Except SpanFault Span := do
  let start ← (Position.read startLine startColumn).mapError .position
  let stop ← (Position.read stopLine stopColumn).mapError .position
  (Span.ofPositions start stop).mapError .reversed

/-- The narrowing that is given by its name. -/
def Narrowing.read (name : Json) : Except (List FieldError) Narrowing :=
  let refused : FieldError := ⟨["op"], .notListed (Narrowing.all.map Narrowing.name), name⟩
  match name with
  | .str s => match Narrowing.ofName? s with
    | some n => .ok n
    | none => .error [refused]
  | _ => .error [refused]

end Tighten
