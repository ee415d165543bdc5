import Tighten.Position
import Tighten.Syntax.Node

/-
Where a syntax tree goes wrong.

The search goes down into the first child that is marked as containing an error and never comes
back.  It ends at a fault, or finds none where the marks promise more than the tree holds.
-/
namespace Tighten.Syntax

mutual

/-- The first fault on the way down along the first marked child of each node. -/
def Node.firstFault? : Node → Option Node
  | .mk k s e r m f cs =>
    if k == .error || m then some (.mk k s e r m f cs) else firstFaultAmong? cs

/-- The first fault of the first marked node of a list. -/
def firstFaultAmong? : List Node → Option Node
  | [] => none
  | c :: rest => if c.hasError then c.firstFault? else firstFaultAmong? rest

end

/-- The place of a fault in words, rows and byte columns counted from one. -/
def describeFault (source : List UInt8) : Option Node → String
  | none => "unknown location"
  | some n =>
    let p := Point.ofOffset source n.start
    s!"line {p.row + 1}, byte column {p.column + 1}"

/-- The place of the first error of a tree, in words. -/
def errorSite (source : List UInt8) (root : Node) : String :=
  describeFault source root.firstFault?

end Tighten.Syntax
