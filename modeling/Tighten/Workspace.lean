import Tighten.OsError
import Tighten.Path

/-
The files that a campaign works on.

A workspace is the part of the file system below one directory: regular files with their bytes, and
directories.  It answers as the operating system would: a name below something that is not a
directory, a missing name and a directory in a file's place are refused with different errors.
Names that consist of two points lead to the parent directory, and nothing outside the base can be
reached.

There are no links: a file stands at one list of names, and what is written at other names leaves it
as it is.  Permissions are left out too.
-/
namespace Tighten

/-- What stands at a path. -/
inductive Entry where
  | file (bytes : List UInt8)
  | directory
deriving DecidableEq, Repr

/-- The files and directories below a base directory. -/
structure Workspace where
  base : Path
  /-- What stands at the names below the base.  Of a list of names that occurs twice the first entry
  counts; that none does is assumed where it matters, as `Distinct`. -/
  entries : List (List String × Entry)
deriving DecidableEq, Repr

/-- A way to replace the bytes of a file, where files are part of a state `σ`. -/
abbrev Writer (σ : Type) := Path → List UInt8 → σ → Except OsError Unit × σ

namespace Workspace

/-! ### Looking -/

/-- What stands at the given names below the base. -/
def entry? (w : Workspace) (names : List String) : Option Entry :=
  match names with
  | [] => some .directory
  | _ => w.entries.lookup names

/-- Goes down along names, from a place that must be a directory for each further step. -/
def descend (w : Workspace) (place : List String) : List String → Except Errno (List String)
  | [] => .ok place
  | n :: rest =>
    match w.entry? place with
    | none => .error .noEntry
    | some (.file _) => .error .notDirectory
    | some .directory =>
      if n = ".." then
        match place with
        | [] => .error .noEntry
        | _ => descend w place.dropLast rest
      else descend w (place ++ [n]) rest

/-- The names below the base that a path leads to. -/
def locate (w : Workspace) (p : Path) : Except Errno (List String) :=
  if p.anchor = w.base.anchor ∧ w.base.names.isPrefixOf p.names then
    descend w [] (p.names.drop w.base.names.length)
  else if p.names.isPrefixOf w.base.names then .error .isDirectory
  else .error .noEntry

/-- Whether a regular file stands at a path. -/
def isFile (w : Workspace) (p : Path) : Bool :=
  match w.locate p with
  | .ok names => match w.entry? names with
    | some (.file _) => true
    | _ => false
  | .error _ => false

/-- Whether anything stands at a path. -/
def exists? (w : Workspace) (p : Path) : Bool :=
  match w.locate p with
  | .ok names => (w.entry? names).isSome
  | .error e => e == .isDirectory

/-- The bytes of the file at a path. -/
def read (w : Workspace) (p : Path) : Except OsError (List UInt8) :=
  match w.locate p with
  | .error e => .error ⟨e, p.toText⟩
  | .ok names =>
    match w.entry? names with
    | some (.file bytes) => .ok bytes
    | some .directory => .error ⟨.isDirectory, p.toText⟩
    | none => .error ⟨.noEntry, p.toText⟩

/-! ### Changing -/

/-- The entries after something new stands at the given names. -/
def putEntry (names : List String) (e : Entry) :
    List (List String × Entry) → List (List String × Entry)
  | [] => [(names, e)]
  | (n, old) :: rest => if n = names then (n, e) :: rest else (n, old) :: putEntry names e rest

/-- The workspace after something new stands at the given names. -/
def put (w : Workspace) (names : List String) (e : Entry) : Workspace :=
  { w with entries := putEntry names e w.entries }

/-- The workspace with a file's bytes replaced, or with a new file. -/
def write (w : Workspace) (p : Path) (bytes : List UInt8) : Except OsError Workspace :=
  match w.locate p with
  | .error e => .error ⟨e, p.toText⟩
  | .ok names =>
    match w.entry? names with
    | some .directory => .error ⟨.isDirectory, p.toText⟩
    | some (.file _) => .ok (w.put names (.file bytes))
    | none => .ok (w.put names (.file bytes))

/-- Writes to the files of a workspace, which stays as it is when that is refused. -/
def writer : Writer Workspace := fun p bytes w =>
  match w.write p bytes with
  | .ok w => (.ok (), w)
  | .error e => (.error e, w)

/-- The lists of names above the given one, from the outermost on. -/
def ancestors (names : List String) : List (List String) :=
  (List.range names.length).tail.map names.take

/-- The workspace with the given directories, where nothing stands there yet. -/
def makeDirectories (w : Workspace) (places : List (List String)) : Workspace :=
  places.foldl (fun w d => if (w.entry? d).isSome then w else w.put d .directory) w

/-- The workspace with something at the given names and directories above it. -/
def add (w : Workspace) (names : List String) (e : Entry) : Workspace :=
  let w := w.makeDirectories (ancestors names)
  match e with
  | .directory => w.makeDirectories [names]
  | .file _ => w.put names e

/-- The workspace without what stands at the given names, and below them. -/
def remove (w : Workspace) (names : List String) : Workspace :=
  { w with entries := w.entries.filter fun (n, _) => !names.isPrefixOf n }

/-- The workspace with an empty directory in the place of whatever stood there. -/
def obstruct (w : Workspace) (names : List String) : Workspace :=
  (w.remove names).put names .directory

/-! ### Files -/

/-- The regular files, each with its names. -/
def files (w : Workspace) : List (List String × List UInt8) :=
  w.entries.filterMap fun (names, e) => match e with
    | .file bytes => some (names, bytes)
    | .directory => none

/-- The names of the regular files below a directory. -/
def filesBelow (w : Workspace) (place : List String) : List (List String) :=
  (w.files.map (·.1)).filter fun n => place.isPrefixOf n && n != place

/-- The bytes of the file with these names. -/
def bytes? (w : Workspace) (names : List String) : Option (List UInt8) :=
  match w.entry? names with
  | some (.file bytes) => some bytes
  | _ => none

/-- The workspace with all of the given files as they are given; a directory in a file's place is
removed first. -/
def restore (w : Workspace) (saved : List (List String × List UInt8)) : Workspace :=
  saved.foldl (fun w (names, bytes) =>
    let w := match w.entry? names with
      | some .directory => w.remove names
      | _ => w
    w.add names (.file bytes)) w

/-- The files that are not the same in two states of a workspace, with what they hold now; by the
text of their paths. -/
def changes (before after : Workspace) : List (String × Option (List UInt8)) :=
  let names := before.files.map (·.1) ++
    (after.files.map (·.1)).filter fun n => (before.bytes? n).isNone
  let changed := names.filter fun n => before.bytes? n != after.bytes? n
  (changed.map fun n => ("/".intercalate n, after.bytes? n)).mergeSort
    fun a b => !decide (b.1 < a.1)

end Workspace

end Tighten
