import Tighten.Crate

/-
A batch of candidates, made all at once.

Each file of the batch is written once, with all of its edits.  The edits of one file are made from
the last span to the first, so that those still to be made keep their places.  The text that they
are made in is the one the candidates carry, not what the disk holds.

A file's new text is complete before the file is written.  So when something goes wrong at a file,
the files before it hold all of their edits, and that file and those after it hold none.
-/
namespace Tighten

/-- Why a batch could not be made. -/
inductive ApplyError where
  | region (error : RegionError)
  | source (error : SourceError)
deriving DecidableEq, Repr

/-- What went wrong, in words. -/
def ApplyError.message : ApplyError → String
  | .region e => e.message
  | .source e => e.message

namespace Batch

/-- The paths of the files of a batch, in the order in which they first occur. -/
def paths (batch : List Candidate) : List Path :=
  (batch.map fun c => c.file.path).eraseDups

/-- The candidates of one file, in the order of the batch. -/
def within (batch : List Candidate) (path : Path) : List Candidate :=
  batch.filter fun c => c.file.path == path

/-- Candidates from the last span to the first; those with the same span keep their order. -/
def lastFirst (group : List Candidate) : List Candidate :=
  group.mergeSort fun a b => !a.span.before b.span

/-- The text after several edits, made from the last span to the first. -/
def edited (group : List Candidate) (code : String) : Except RegionError String :=
  (lastFirst group).foldlM (fun code c => c.applyTo code) code

/-- The new text of one file of the batch; the text of its first candidate is the one edited. -/
def newText (batch : List Candidate) (path : Path) : Except RegionError String :=
  let group := within batch path
  edited group ((group.head?.map fun c => c.file.code).getD "")

/-- Makes the edits of one file. -/
def applyAt {σ : Type} (write : Writer σ) (batch : List Candidate) (path : Path) (s : σ) :
    Except ApplyError Unit × σ :=
  match newText batch path with
  | .error e => (.error (.region e), s)
  | .ok code =>
    match storeCode write path code s with
    | (.ok (), s) => (.ok (), s)
    | (.error e, s) => (.error (.source e), s)

/-- Makes the edits of several files, up to the first at which something goes wrong. -/
def applyTo {σ : Type} (write : Writer σ) (batch : List Candidate) :
    List Path → σ → Except ApplyError Unit × σ
  | [], s => (.ok (), s)
  | p :: rest, s =>
    match applyAt write batch p s with
    | (.ok (), s) => applyTo write batch rest s
    | (.error e, s) => (.error e, s)

/-- Makes a batch; the answer is the paths of the files written. -/
def apply {σ : Type} (write : Writer σ) (batch : List Candidate) (s : σ) :
    Except ApplyError (List Path) × σ :=
  match applyTo write batch (paths batch) s with
  | (.ok (), s) => (.ok (paths batch), s)
  | (.error e, s) => (.error e, s)

end Batch

end Tighten
