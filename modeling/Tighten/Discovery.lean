import Tighten.Span
import Tighten.Syntax.Node
import Tighten.Visibility

/-
Discovery: every way of narrowing a declaration of a file.

The walk goes down from the root in source order.  Declarations have rules of their own; below any
other node the walk goes on, except for the subtrees that hold no declaration of the file itself:
members of `impl` and `trait`, blocks and macros.  A declaration contributes one edit for each
narrowing of the visibility that its first modifier declares, at the span of that modifier.
-/
namespace Tighten

/-- A narrowing at a place. -/
structure Edit where
  narrowing : Narrowing
  span : Span
deriving DecidableEq, Repr

/-- Why a tree could not be walked to its end: a modifier's bytes are no text, or its range runs
backwards. -/
inductive WalkError where
  | undecodable (error : Text.Utf8.DecodeError)
  | reversed (error : ReversedSpan)
deriving DecidableEq, Repr

namespace Discovery

open Syntax

/-- The edits of a declaration with this modifier. -/
def narrow (source : List UInt8) (modifier : Option Node) : Except WalkError (List Edit) :=
  match modifier with
  | none => .ok []
  | some v => do
    let text ← (Text.Utf8.decode (v.bytes source)).mapError .undecodable
    match (Visibility.ofModifier text).narrowings with
    | [] => return []
    | ways =>
      let span ← (Span.ofBytes source v.start v.stop).mapError .reversed
      return ways.map fun way => ⟨way, span⟩

/-- The edits of a declaration itself. -/
def declaration (source : List UInt8) (n : Node) : Except WalkError (List Edit) :=
  narrow source n.modifier?

/-- The results of a list of steps, one after the other. -/
def inTurn (step : Node → Except WalkError (List Edit)) :
    List Node → Except WalkError (List Edit)
  | [] => .ok []
  | n :: rest => do
    let first ← step n
    let others ← inTurn step rest
    return first ++ others

/-- The edits of the fields in a list of fields. -/
def fields (source : List UInt8) (list : Node) : Except WalkError (List Edit) :=
  inTurn (declaration source) (list.children.filter fun c => c.kind == .field)

/-- The edits of the fields in a body, where the body is a list of fields. -/
def bodyFields (source : List UInt8) (body : Option Node) : Except WalkError (List Edit) :=
  match body with
  | some b => if b.kind == .fieldList then fields source b else .ok []
  | none => .ok []

/-- The edits of a `struct` or `union`: its own, then those of its fields. -/
def aggregate (source : List UInt8) (n : Node) : Except WalkError (List Edit) := do
  let own ← declaration source n
  let inner ← bodyFields source n.body?
  return own ++ inner

/-- The edits of a variant's fields; the variant itself has none. -/
def variant (source : List UInt8) (n : Node) : Except WalkError (List Edit) :=
  bodyFields source n.body?

/-- The edits of the variants in the body of an `enum`. -/
def variants (source : List UInt8) (body : Option Node) : Except WalkError (List Edit) :=
  match body with
  | some b => inTurn (variant source) (b.children.filter fun c => c.kind == .enumVariant)
  | none => .ok []

/-- The edits of an `enum`: its own, then those of its variants' fields. -/
def enumeration (source : List UInt8) (n : Node) : Except WalkError (List Edit) := do
  let own ← declaration source n
  let inner ← variants source n.body?
  return own ++ inner

/-- How the walk treats a kind of node. -/
inductive Treatment where
  /-- The node has a rule that yields its edits. -/
  | rule (step : List UInt8 → Node → Except WalkError (List Edit))
  /-- Nothing below the node is looked at. -/
  | skip
  /-- The walk goes on with the children. -/
  | descend

/-- The treatment of each kind. -/
def treatment : Kind → Treatment
  | .structItem => .rule aggregate
  | .unionItem => .rule aggregate
  | .functionItem => .rule declaration
  | .enumItem => .rule enumeration
  | .enumVariant => .rule variant
  | .fieldList => .rule fields
  | .field => .rule declaration
  | .implItem => .skip
  | .traitItem => .skip
  | .block => .skip
  | .macroCall => .skip
  | .macroDefinition => .skip
  | .visibility => .descend
  | .error => .descend
  | .other _ => .descend

mutual

/-- The edits of a tree, in source order. -/
def walk (source : List UInt8) : Node → Except WalkError (List Edit)
  | .mk k s e r m f cs =>
    match treatment k with
    | .rule step => step source (.mk k s e r m f cs)
    | .skip => .ok []
    | .descend => walkAll source cs

/-- The edits of a list of trees, one after the other. -/
def walkAll (source : List UInt8) : List Node → Except WalkError (List Edit)
  | [] => .ok []
  | n :: rest => do
    let first ← walk source n
    let others ← walkAll source rest
    return first ++ others

end

end Discovery

end Tighten
