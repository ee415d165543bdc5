/-
Paths of files.

A path is an anchor and a list of names.  Reading a path drops what does not change its meaning:
repeated and trailing slashes and names that are a single point.  Two points are kept, since what
they mean depends on the file system.  Exactly two slashes at the front are an anchor of their own.
-/
namespace Tighten

/-- A path in normal form. -/
structure Path where
  /-- Nothing for a relative path, otherwise one or two slashes. -/
  anchor : String
  names : List String
deriving DecidableEq, Repr

namespace Path

/-- The pieces of a text between slashes. -/
def pieces : List Char → List (List Char)
  | [] => [[]]
  | c :: rest =>
    if c = '/' then [] :: pieces rest
    else
      match pieces rest with
      | [] => [[c]]
      | first :: others => (c :: first) :: others

/-- The anchor at the front of a text. -/
def anchorOf (text : List Char) : String :=
  match (text.takeWhile (· = '/')).length with
  | 0 => ""
  | 2 => "//"
  | _ => "/"

/-- The path that a text denotes. -/
def ofText (text : String) : Path where
  anchor := anchorOf text.toList
  names := ((pieces text.toList).filter fun p => p ≠ [] ∧ p ≠ ['.']).map String.ofList

/-- The relative path with these names. -/
def ofNames (names : List String) : Path := ⟨"", names⟩

/-- The text of a path; the empty path is a single point. -/
def toText (p : Path) : String :=
  if p.anchor = "" ∧ p.names = [] then "." else p.anchor ++ "/".intercalate p.names

/-- The second path as seen from the first; a path with an anchor is the same from everywhere. -/
def join (p q : Path) : Path :=
  if q.anchor = "" then ⟨p.anchor, p.names ++ q.names⟩ else q

/-- The names without those of two points, each of which takes back the name before it. -/
def withoutParents : (before : List String) → List String → List String
  | before, [] => before
  | before, n :: rest =>
    if n = ".." then withoutParents before.dropLast rest else withoutParents (before ++ [n]) rest

/-- The path with every step to a parent directory taken. -/
def resolved (p : Path) : Path := ⟨p.anchor, withoutParents [] p.names⟩

/-- The last name of a path. -/
def lastName (p : Path) : String :=
  p.names.getLast?.getD ""

/-- The part of a name from its last point on, where that point is neither its first nor its last
character. -/
def suffixOf (name : List Char) : List Char :=
  let tail := name.reverse.takeWhile (· ≠ '.')
  if tail.length + 1 < name.length ∧ tail ≠ [] then '.' :: tail.reverse else []

/-- The suffix of the last name. -/
def suffix (p : Path) : String :=
  String.ofList (suffixOf p.lastName.toList)

/-- The order of lists of names: by the first name in which they differ. -/
def namesBefore : List String → List String → Bool
  | [], [] => false
  | [], _ :: _ => true
  | _ :: _, [] => false
  | a :: as, b :: bs => if a = b then namesBefore as bs else decide (a < b)

/-- The order of paths, name by name. -/
def before (p q : Path) : Bool :=
  namesBefore (p.anchor :: p.names) (q.anchor :: q.names)

end Path

end Tighten
