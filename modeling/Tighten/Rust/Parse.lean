import Tighten.Rust.Grammar
import Tighten.Syntax.ErrorSite

/-
From Rust text to a syntax tree.

Every text has a tree.  The tree of a text that is not a Rust file consists of the root and one
error node, which begins where the text stopped making sense.
-/
namespace Tighten

/-- A text was refused; `site` says in words where it goes wrong. -/
structure SyntaxError where
  site : String
deriving DecidableEq, Repr

/-- What is wrong, in words. -/
def SyntaxError.message (e : SyntaxError) : String :=
  "tree-sitter parse error near " ++ e.site

/-- A way of reading the syntax tree of a text. -/
abbrev Parser := String → Except SyntaxError Syntax.Node

namespace Rust

open Syntax

/-- The most calls inside each other that reading this many tokens can need. -/
def depthFor (tokens : Nat) : Nat := 400 * (tokens + 1)

/-- The tree of a file that stops making sense at an offset. -/
def brokenTree (size offset : Nat) : Node :=
  .marked (.other "source_file") 0 size .none false
    [.marked .error offset size .none false []]

/-- The syntax tree of a text. -/
def tree (text : List Char) : Node :=
  let size := Text.Utf8.size text
  match tokens text with
  | .error offset => brokenTree size offset
  | .ok ts =>
    match read grammar (depthFor ts.length) (.symbol .file) ⟨0, ts⟩ with
    | .matched [root] ⟨_, []⟩ => root
    | .matched _ after => brokenTree size after.next
    | .refused => brokenTree size 0
    | .malformed offset => brokenTree size offset

end Rust

/-- The tree, if it holds no error. -/
def Syntax.accept (source : List UInt8) (root : Node) : Except SyntaxError Node :=
  if root.hasError then .error ⟨errorSite source root⟩ else .ok root

/-- Reads a Rust file. -/
def Rust.parse : Parser := fun text =>
  Syntax.accept (Text.Utf8.encode text.toList) (tree text.toList)

end Tighten
