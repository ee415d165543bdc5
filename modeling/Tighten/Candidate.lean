import Tighten.Discovery
import Tighten.Path
import Tighten.Region
import Tighten.Rust.Parse

/-
Source files and the candidate edits in them.

A source file carries its text, so an edit can be tried without going back to the disk: a candidate
says which modifier of which file to replace and with what, and yields the text of the whole file
with only that changed.
-/
namespace Tighten

/-- A file of Rust text.  The text has Unix line endings. -/
structure SourceFile where
  /-- Where the file can be opened. -/
  path : Path
  /-- The path as seen from the root of the crate. -/
  relative : Path
  code : String
deriving DecidableEq, Repr

/-- A narrowing that could be tried in a file. -/
structure Candidate where
  file : SourceFile
  narrowing : Narrowing
  span : Span
deriving DecidableEq, Repr

namespace Candidate

/-- The text with the modifier at the candidate's span replaced. -/
def applyTo (c : Candidate) (code : String) : Except RegionError String :=
  Region.replace code c.span.start c.span.stop c.narrowing.replacement

/-- The text of the candidate's file with this one edit made. -/
def mutated (c : Candidate) : Except RegionError String :=
  c.applyTo c.file.code

/-- Where the edit is and what it does. -/
def describe (c : Candidate) : String :=
  s!"{c.file.relative.toText}:{c.span.start.toText} {c.narrowing.name}"

end Candidate

/-- Why the candidates of a file could not be listed. -/
inductive ListingError where
  | syntactic (error : SyntaxError)
  | walk (error : WalkError)
deriving DecidableEq, Repr

/-- The edits in a text, in source order. -/
def edits (parser : Parser) (code : String) : Except ListingError (List Edit) := do
  let root ← (parser code).mapError .syntactic
  (Discovery.walk (Text.Utf8.encode code.toList) root).mapError .walk

/-- Every candidate of a file, in source order. -/
def SourceFile.candidates (parser : Parser) (file : SourceFile) :
    Except ListingError (List Candidate) :=
  (edits parser file.code).map fun es => es.map fun e => ⟨file, e.narrowing, e.span⟩

end Tighten
