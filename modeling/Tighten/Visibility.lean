import Tighten.Text.Blank
import Tighten.Text.Quoted

/-
Visibility of declarations, and the ways of narrowing it.

A declaration is public, visible in its crate, restricted in some other way, or private by default.
Only the first two can be narrowed, and each has a fixed list of narrower visibilities, tried in a
fixed order.  Narrowing replaces the modifier in the text by another modifier, or by nothing.
-/
namespace Tighten

/-- How far a declaration can be seen. -/
inductive Visibility where
  /-- `pub`. -/
  | everywhere
  /-- `pub(crate)` or `crate`. -/
  | crate
  /-- Any other modifier. -/
  | restricted
  /-- No modifier. -/
  | inherited
deriving DecidableEq, Repr

/-- A visibility to narrow to. -/
inductive Narrowing where
  | toCrate
  | toSelf
  | toSuper
  | toInherited
deriving DecidableEq, Repr

namespace Narrowing

/-- All narrowings, in the order in which they are tried. -/
def all : List Narrowing :=
  [.toCrate, .toSelf, .toSuper, .toInherited]

/-- The name that reports use. -/
def name : Narrowing → String
  | .toCrate => "to_vis_crate"
  | .toSelf => "to_vis_self"
  | .toSuper => "to_vis_super"
  | .toInherited => "to_vis_inherited"

/-- The modifier that is written in place of the old one. -/
def replacement : Narrowing → String
  | .toCrate => "pub(crate)"
  | .toSelf => "pub(self)"
  | .toSuper => "pub(super)"
  | .toInherited => ""

/-- The narrowing with this name. -/
def ofName? (name : String) : Option Narrowing :=
  all.find? fun n => n.name == name

theorem ofName?_name (n : Narrowing) : ofName? n.name = some n := by
  cases n <;> rfl

end Narrowing

namespace Visibility

/-- The name that reports use. -/
def name : Visibility → String
  | .everywhere => "public"
  | .crate => "crate"
  | .restricted => "restricted"
  | .inherited => "inherited"

/-- What is said of a word that names no visibility. -/
def unknownMessage (word : String) : String :=
  Text.quote word ++ " is not a valid Visibility"

/-- The visibility with this name. -/
def ofName? (name : String) : Option Visibility :=
  [everywhere, crate, restricted, inherited].find? fun v => v.name == name

/-- The narrower visibilities to try, in order. -/
def narrowings : Visibility → List Narrowing
  | .everywhere => [.toCrate, .toSelf, .toSuper, .toInherited]
  | .crate => [.toSelf, .toSuper, .toInherited]
  | .restricted => []
  | .inherited => []

/-- The visibility that a modifier's text declares, blanks apart. -/
def ofModifier (text : List Char) : Visibility :=
  let squeezed := Text.squeeze text
  if squeezed = "pub".toList then .everywhere
  else if squeezed = "pub(crate)".toList ∨ squeezed = "crate".toList then .crate
  else .restricted

/-- The visibility of a declaration with this modifier, if it has one. -/
def ofModifier? : Option (List Char) → Visibility
  | none => .inherited
  | some text => ofModifier text

end Visibility

end Tighten
