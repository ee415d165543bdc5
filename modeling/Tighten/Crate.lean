import Tighten.Candidate
import Tighten.Log
import Tighten.Workspace

/-
A crate: a directory with a manifest and Rust files below `src`.

The files of a crate are those with the right suffix at any depth, in the order of their paths name
by name, whatever order the directories list them in.  A file that cannot be read, or that is not
Rust, is passed over with a warning.
-/
namespace Tighten

/-! ### Reading a file -/

/-- Why a file's bytes are not a text. -/
inductive ReadFault where
  | os (error : OsError)
  | undecodable (error : Text.Utf8.DecodeError)
deriving DecidableEq, Repr

/-- A source file could not be read or written. -/
inductive SourceError where
  | unreadable (path : Path) (fault : ReadFault)
  | unwritable (path : Path) (error : OsError)
deriving DecidableEq, Repr

/-- What went wrong, in words. -/
def ReadFault.message : ReadFault → String
  | .os e => e.message
  | .undecodable e => e.message

/-- Which file is concerned and what went wrong. -/
def SourceError.message : SourceError → String
  | .unreadable path fault => s!"failed to read source of {path.toText}: {fault.message}"
  | .unwritable path error => s!"failed to write {path.toText}: {error.message}"

/-- The text of a file's bytes, with Unix line endings. -/
def codeOf (bytes : List UInt8) : Except Text.Utf8.DecodeError String :=
  (Text.Utf8.decode bytes).map fun text => String.ofList (Text.dropReturns text)

/-- Reads a file of a crate. -/
def SourceFile.load (w : Workspace) (root relative : Path) : Except SourceError SourceFile := do
  let path := root.join relative
  let bytes ← (w.read path).mapError fun e => .unreadable path (.os e)
  let code ← (codeOf bytes).mapError fun e => .unreadable path (.undecodable e)
  return ⟨path, relative, code⟩

/-- Replaces the text of a file. -/
def storeCode {σ : Type} (write : Writer σ) (path : Path) (code : String) (s : σ) :
    Except SourceError Unit × σ :=
  match write path (Text.Utf8.encode code.toList) s with
  | (.ok (), s) => (.ok (), s)
  | (.error e, s) => (.error (.unwritable path e), s)

/-! ### The crate -/

/-- A directory that holds a manifest. -/
structure Crate where
  root : Path
deriving DecidableEq, Repr

/-- The directory is not a crate. -/
structure NotACrate where
  root : Path
deriving DecidableEq, Repr

/-- The file that makes a directory a crate. -/
def manifestName : String := "Cargo.toml"

/-- The directory that holds a crate's source files. -/
def sourceDirectory : String := "src"

/-- The suffix of source files, in lower case. -/
def sourceSuffix : String := ".rs"

/-- What is missing, in words. -/
def NotACrate.message (e : NotACrate) : String :=
  s!"{e.root.toText} does not contain a {manifestName}: specify a crate directory"

/-- Who speaks in the log lines of this module. -/
def sourceLogger : String := "retypist.source"

namespace Crate

/-- The crate in a directory. -/
def atRoot (w : Workspace) (root : Path) : Except NotACrate Crate :=
  if w.isFile (root.join (Path.ofNames [manifestName])) then .ok ⟨root⟩ else .error ⟨root⟩

/-- The crate in a constructor's notation. -/
def describe (c : Crate) : String :=
  s!"SourceTree(root={Text.quote c.root.toText})"

/-- The directory of the source files. -/
def sources (c : Crate) : Path :=
  c.root.join (Path.ofNames [sourceDirectory])

/-- The paths of all files below `src`, as seen from the root of the crate, in order. -/
def filePaths (w : Workspace) (c : Crate) : List Path :=
  match w.locate c.sources with
  | .error _ => []
  | .ok place =>
    let below := (w.filesBelow place).map fun n =>
      Path.ofNames (sourceDirectory :: n.drop place.length)
    below.mergeSort fun a b => !b.before a

/-- Whether a path has the suffix of source files, in letters of either case. -/
def isSource (p : Path) : Bool :=
  p.suffix.map Char.toLower == sourceSuffix

/-- The paths of the source files, in order. -/
def sourcePaths (w : Workspace) (c : Crate) : List Path :=
  (c.filePaths w).filter isSource

/-- What is logged about the files that are not source files. -/
def skipLog (w : Workspace) (c : Crate) : List LogLine :=
  ((c.filePaths w).filter fun p => !isSource p).map fun p =>
    ⟨.debug, sourceLogger, s!"Skipping non-Rust file {(c.root.join p).toText}"⟩

/-- What is logged about a source file that is passed over. -/
def skipped (relative : Path) (why : String) : LogLine :=
  ⟨.warning, sourceLogger, s!"Skipping {relative.toText}: {why}"⟩

/-- The source files that can be read, and what is logged on the way. -/
def sourceFiles (w : Workspace) (c : Crate) : List SourceFile × List LogLine :=
  let loaded := (c.sourcePaths w).map fun p => (p, SourceFile.load w c.root p)
  (loaded.filterMap fun (_, r) => r.toOption,
    c.skipLog w ++ loaded.filterMap fun (p, r) => match r with
      | .ok _ => none
      | .error e => some (skipped p e.message))

/-- The candidates of one file, or none with a warning where it is passed over. -/
def candidatesAt (parser : Parser) (w : Workspace) (c : Crate) (relative : Path) :
    Except WalkError (List Candidate × List LogLine) :=
  match SourceFile.load w c.root relative with
  | .error e => .ok ([], [skipped relative e.message])
  | .ok file =>
    match file.candidates parser with
    | .ok found => .ok (found, [])
    | .error (.syntactic e) => .ok ([], [skipped relative e.message])
    | .error (.walk e) => .error e

/-- The candidates of several files, one file after the other. -/
def candidatesIn (parser : Parser) (w : Workspace) (c : Crate) :
    List Path → Except WalkError (List Candidate × List LogLine)
  | [] => .ok ([], [])
  | p :: rest => do
    let (found, log) ← c.candidatesAt parser w p
    let (others, more) ← candidatesIn parser w c rest
    return (found ++ others, log ++ more)

/-- All candidates of the crate, file by file, and what is logged on the way. -/
def candidates (parser : Parser) (w : Workspace) (c : Crate) :
    Except WalkError (List Candidate × List LogLine) := do
  let (found, log) ← c.candidatesIn parser w (c.sourcePaths w)
  return (found, c.skipLog w ++ log)

end Crate

end Tighten
