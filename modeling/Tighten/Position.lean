import Tighten.Text.Utf8

/-
Positions in a text.

People count lines and columns from one and columns in characters; a parser counts bytes.  A
position is always the former.  The way from a byte offset to a position goes through the bytes of
its line that lie before it: their number of characters, read leniently, is the column.  An offset
in the middle of a character therefore belongs to the position after that character.
-/
namespace Tighten

/-- A line and a column, both counted from one, the column in characters. -/
structure Position where
  line : Nat
  column : Nat
  line_pos : 1 ≤ line := by omega
  column_pos : 1 ≤ column := by omega
deriving DecidableEq, Repr

namespace Position

/-- Whether the first position is before the second one in reading order. -/
def before (p q : Position) : Bool :=
  p.line < q.line || (p.line == q.line && p.column < q.column)

/-- The usual notation, `line:column`. -/
def toText (p : Position) : String :=
  s!"{p.line}:{p.column}"

end Position

/-! ### Byte coordinates -/

/-- The elements from index `start` up to index `stop`, where a negative index counts from the
end of the list. -/
def slice {α : Type} (xs : List α) (start stop : Int) : List α :=
  let clamp (i : Int) : Nat := if i < 0 then (i + xs.length).toNat else min i.toNat xs.length
  (xs.take (clamp stop)).drop (clamp start)

/-- A row and a column, both counted from zero, the column in bytes. -/
structure Point where
  row : Nat
  column : Nat
deriving DecidableEq, Repr

/-- The byte that ends a line. -/
def newline : UInt8 := 10

/-- The point of a byte offset: newlines before it, and bytes since the last of them. -/
def Point.ofOffset (source : List UInt8) (offset : Nat) : Point :=
  let before := source.take offset
  ⟨before.count newline, (before.reverse.takeWhile (· ≠ newline)).length⟩

namespace Position

/-- The column of a byte offset that lies `byteColumn` bytes into its line. -/
def columnAt (source : List UInt8) (offset byteColumn : Int) : Nat :=
  (Text.Utf8.decodeLossy (slice source (offset - byteColumn) offset)).length + 1

/-- The position of a byte offset of which the point is known. -/
def ofPoint (source : List UInt8) (offset : Int) (row : Nat) (byteColumn : Int) : Position where
  line := row + 1
  column := columnAt source offset byteColumn
  column_pos := Nat.le_add_left ..

/-- The position of a byte offset. -/
def ofOffset (source : List UInt8) (offset : Nat) : Position :=
  let point := Point.ofOffset source offset
  ofPoint source offset point.row point.column

end Position

end Tighten
