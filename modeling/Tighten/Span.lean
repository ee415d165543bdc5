import Tighten.Position

/-
Spans: stretches of text between two positions.

A span begins at its first character and stops just past its last one, so a span whose two ends
coincide is empty.  The ends are always in order; trying to make a span of two positions that are
not gives back the two positions.
-/
namespace Tighten

/-- The text from `start` up to, and not including, `stop`. -/
structure Span where
  start : Position
  stop : Position
  ordered : stop.before start = false
deriving DecidableEq, Repr

/-- Two positions that were meant as a span, the wrong way round. -/
structure ReversedSpan where
  start : Position
  stop : Position
deriving DecidableEq, Repr

/-- What is wrong with a reversed span. -/
def ReversedSpan.message (e : ReversedSpan) : String :=
  s!"span end {e.stop.toText} precedes start {e.start.toText}"

namespace Span

/-- The span between two positions. -/
def ofPositions (start stop : Position) : Except ReversedSpan Span :=
  if h : stop.before start = false then .ok ⟨start, stop, h⟩ else .error ⟨start, stop⟩

/-- The span of the bytes from offset `start` up to offset `stop`. -/
def ofBytes (source : List UInt8) (start stop : Nat) : Except ReversedSpan Span :=
  ofPositions (Position.ofOffset source start) (Position.ofOffset source stop)

/-- Whether the span holds no character. -/
def isEmpty (s : Span) : Bool :=
  s.start == s.stop

/-- The order of spans: by start, and by stop where the starts agree. -/
def before (a b : Span) : Bool :=
  a.start.before b.start || (a.start == b.start && a.stop.before b.stop)

/-- The usual notation, `line:column-line:column`. -/
def toText (s : Span) : String :=
  s!"{s.start.toText}-{s.stop.toText}"

/-- The spans in order; spans that are equal keep their places relative to each other. -/
def sort (spans : List Span) : List Span :=
  spans.mergeSort fun a b => !b.before a

/-- The spans without repetitions, each at its first place. -/
def distinct (spans : List Span) : List Span :=
  spans.foldl (fun seen s => if s ∈ seen then seen else seen ++ [s]) []

end Span

end Tighten
