import Tighten.Crate
import Tighten.Random

/-
Sampling: a random batch of candidates, at most one for each span.

The size of the batch is drawn first.  Then files are drawn, with replacement, from those that may
still have a candidate, and from the file drawn one candidate at random; the others at the same
span are dropped.  A file is read and parsed when it is first drawn and never again.  Every draw
either adds to the batch or retires a file, so the size plus the number of files bounds the draws.
-/
namespace Tighten

/-- Why there is no batch. -/
inductive SampleError where
  | noFiles (sources : Path)
  | emptyRange (error : EmptyRange)
  | noCandidates (sources : Path)
  | walk (error : WalkError)
deriving DecidableEq, Repr

namespace Sampling

/-- What is known while a batch grows. -/
structure Draft (ρ : Type) where
  /-- The candidates chosen so far, in order. -/
  batch : List Candidate
  /-- The candidates left in each file that has been drawn. -/
  remaining : List (Path × List Candidate)
  /-- The files that may still have a candidate. -/
  live : List Path
  random : ρ
  log : List LogLine

/-- A batch about to grow, from some files. -/
def Draft.start {ρ : Type} (paths : List Path) (random : ρ) (log : List LogLine) : Draft ρ :=
  ⟨[], [], paths, random, log⟩

/-- Stores the candidates left in a file. -/
def setRemaining (p : Path) (left : List Candidate) :
    List (Path × List Candidate) → List (Path × List Candidate)
  | [] => [(p, left)]
  | (q, old) :: rest => if q = p then (q, left) :: rest else (q, old) :: setRemaining p left rest

/-- A way to list the candidates of a file, with what is logged on the way. -/
abbrev Finder (m : Type → Type) := Path → m (List Candidate × List LogLine)

/-- The candidates left in a file, which is read if it has not been drawn before. -/
def leftIn {m : Type → Type} [Monad m] {ρ : Type} (discover : Finder m) (p : Path)
    (d : Draft ρ) : m (List Candidate × Draft ρ) :=
  match d.remaining.lookup p with
  | some left => return (left, d)
  | none => do
    let (found, log) ← discover p
    return (found, { d with
      remaining := setRemaining p found d.remaining, log := d.log ++ log })

/-- Takes one candidate of a file at random, or retires the file if it has none left. -/
def take {ρ : Type} (source : RandomSource ρ) (p : Path) (left : List Candidate) (d : Draft ρ) :
    Draft ρ :=
  if left.isEmpty then { d with live := d.live.erase p }
  else
    let (shuffled, random) := source.shuffle left d.random
    match shuffled.getLast? with
    | none => { d with random }
    | some chosen =>
      let others := shuffled.dropLast.filter fun m => m.span != chosen.span
      { d with
        batch := d.batch ++ [chosen], remaining := setRemaining p others d.remaining, random }

/-- One draw: a file that may still have a candidate, and a candidate of it. -/
def turn {m : Type → Type} [Monad m] {ρ : Type} (discover : Finder m)
    (source : RandomSource ρ) (d : Draft ρ) : m (Draft ρ) :=
  let (i, random) := source.index d.live.length d.random
  let d := { d with random }
  match d.live[i]? with
  | none => return d
  | some p => do
    let (left, d) ← leftIn discover p d
    return take source p left d

/-- Whether there is nothing more to draw: the batch has its size, or no file is left. -/
def isDone {ρ : Type} (total : Int) (d : Draft ρ) : Bool :=
  total ≤ d.batch.length || d.live.isEmpty

/-- Draws until there is nothing more to draw or the draws are used up. -/
def fill {m : Type → Type} [Monad m] {ρ : Type} (discover : Finder m)
    (source : RandomSource ρ) (total : Int) : (draws : Nat) → Draft ρ → m (Draft ρ)
  | 0, d => return d
  | draws + 1, d =>
    if isDone total d then return d
    else do
      let d ← turn discover source d
      fill discover source total draws d

/-- The draft that was reached when there was nothing more to draw, or when the candidates of the
file drawn last could not be listed. -/
def reached {ρ : Type} (discover : Finder (Except WalkError)) (source : RandomSource ρ)
    (total : Int) : (draws : Nat) → Draft ρ → Draft ρ
  | 0, d => d
  | draws + 1, d =>
    if isDone total d then d
    else
      match turn discover source d with
      | .ok d => reached discover source total draws d
      | .error _ => { d with random := (source.index d.live.length d.random).2 }

/-- The way to list candidates that also records which files were read, in order. -/
def recorded (discover : Finder (Except WalkError)) :
    Finder (ExceptT WalkError (StateM (List Path))) := fun p => do
  modify (· ++ [p])
  match discover p with
  | .ok found => return found
  | .error e => throw e

/-- What is logged about a finished batch. -/
def summary (size : Nat) (total : Int) : List LogLine :=
  let short : List LogLine :=
    if (size : Int) < total then
      [⟨.debug, sourceLogger, s!"Only {size} of {total} mutations available"⟩]
    else []
  short ++ [⟨.debug, sourceLogger, s!"Sampled {size} mutations"⟩]

/-- What came of sampling: the batch or why there is none, the state of chance afterwards and what
was logged. -/
structure Result (ρ : Type) where
  batch : Except SampleError (List Candidate)
  random : ρ
  log : List LogLine

/-- The batch that grows from the files of a crate, with a draw for every slot and one for every
file. -/
def growth {m : Type → Type} [Monad m] {ρ : Type} (discover : Finder m) (source : RandomSource ρ)
    (w : Workspace) (c : Crate) (total : Int) (random : ρ) : m (Draft ρ) :=
  fill discover source total (total + (c.sourcePaths w).length).toNat
    (Draft.start (c.sourcePaths w) random (c.skipLog w))

/-- How far the batch had grown when a file could not be listed. -/
def halted {ρ : Type} (discover : Finder (Except WalkError)) (source : RandomSource ρ)
    (w : Workspace) (c : Crate) (total : Int) (random : ρ) : Draft ρ :=
  reached discover source total (total + (c.sourcePaths w).length).toNat
    (Draft.start (c.sourcePaths w) random (c.skipLog w))

/-- A random batch of between `least` and `most` candidates, fewer if the crate has no more. -/
def sample {ρ : Type} (parser : Parser) (source : RandomSource ρ) (w : Workspace) (c : Crate)
    (least most : Int) (random : ρ) : Result ρ :=
  let skips := c.skipLog w
  if (c.sourcePaths w).isEmpty then ⟨.error (.noFiles c.sources), random, skips⟩
  else
    match source.integer least most random with
    | (.error e, random) => ⟨.error (.emptyRange e), random, skips⟩
    | (.ok total, random) =>
      match growth (c.candidatesAt parser w) source w c total random with
      | .error e =>
        let d := halted (c.candidatesAt parser w) source w c total random
        ⟨.error (.walk e), d.random, d.log⟩
      | .ok d =>
        if d.batch.isEmpty then ⟨.error (.noCandidates c.sources), d.random, d.log⟩
        else ⟨.ok d.batch, d.random, d.log ++ summary d.batch.length total⟩

end Sampling

/-- Why there is no batch, in words. -/
def SampleError.message : SampleError → String
  | .noFiles sources => s!"no {sourceSuffix} files under {sources.toText}"
  | .emptyRange e => e.message
  | .noCandidates sources => s!"no mutable declarations left under {sources.toText}"
  | .walk (.undecodable e) => e.message
  | .walk (.reversed e) => e.message

end Tighten
