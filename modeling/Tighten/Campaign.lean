import Tighten.Batch
import Tighten.Campaign.Host

/-
A campaign: batches of narrowings, tried one after the other.

An iteration starts from the last commit, draws a batch, makes its edits and has the crate tested.
If the tests pass, the batch is committed; in every other case the edits are discarded.  So between
iterations the working tree is that of the last commit.

An iteration ends in one of three outcomes, or it ends the campaign: when the user interrupts, when
there is nothing left to draw, when an edit does not fit its file, or when the last commit cannot be
restored.  Whatever happens, the state that was reached is kept, and another iteration can start
from it.
-/
namespace Tighten.Campaign

/-- What a campaign is doing. -/
inductive Phase where
  | clean
  | mutating
  | validating
  | committing
  | reverting
deriving DecidableEq, Repr

/-- The word for a phase. -/
def Phase.name : Phase → String
  | .clean => "clean"
  | .mutating => "mutating"
  | .validating => "validating"
  | .committing => "committing"
  | .reverting => "reverting"

/-! ### What ends a campaign -/

/-- A way to return to the last commit. -/
inductive Restore where
  | reset
  | discard
deriving DecidableEq, Repr

namespace Restore

/-- The word for a way to return. -/
def name : Restore → String
  | .reset => "reset"
  | .discard => "discard"

/-- The task that does it. -/
def task : Restore → Task
  | .reset => .reset
  | .discard => .discard

end Restore

/-- The working tree could not be returned to the last commit. -/
inductive RestoreError where
  | launch (how : Restore) (error : LaunchError)
  | refused (how : Restore) (root : Path)
deriving DecidableEq, Repr

/-- What failed and why. -/
def RestoreError.message : RestoreError → String
  | .launch how e => s!"git {how.name} failed: {e.message}"
  | .refused how root => s!"git {how.name} failed in {root.toText}"

/-- Why a campaign ended before its time. -/
inductive Failure where
  | cancelled
  | terminate (error : TerminateError)
  | unfinished
  | sample (error : SampleError)
  | region (error : RegionError)
  | restore (error : RestoreError)
  | display (error : Console.MarkupError)
deriving DecidableEq, Repr

/-- What ended the campaign, in words. -/
def Failure.message : Failure → String
  | .cancelled => "interrupted"
  | .terminate e => e.message
  | .unfinished => "a command is still running"
  | .sample e => e.message
  | .region e => e.message
  | .restore e => e.message
  | .display e => e.message

/-! ### Steps -/

/-- Where a campaign stands. -/
structure State (σ ρ : Type) where
  phase : Phase := .clean
  stats : Stats := {}
  random : ρ
  host : σ

/-- What a campaign works with. -/
structure Setup (σ ρ : Type) where
  crate : Crate
  settings : Settings
  parser : Parser
  source : RandomSource ρ
  host : Host σ

/-- A step of a campaign: its result, or why the campaign ends, and the state reached. -/
abbrev Step (σ ρ α : Type) := ExceptT Failure (StateM (State σ ρ)) α

/-- Who speaks in the log lines of this module. -/
def campaignLogger : String := "retypist.campaign"

variable {σ ρ : Type}

/-- Enters a phase. -/
def enter (phase : Phase) : Step σ ρ Unit :=
  modify fun s => { s with phase }

/-- Notes a log line. -/
def note (c : Setup σ ρ) (line : LogLine) : Step σ ρ Unit :=
  modify fun s => { s with host := c.host.log line s.host }

/-- Notes a log line of the campaign's own. -/
def say (c : Setup σ ρ) (level : LogLevel) (message : String) : Step σ ρ Unit :=
  note c ⟨level, campaignLogger, message⟩

/-- Has a task done; an interrupt, or a tool that cannot be stopped, ends the campaign. -/
def call (c : Setup σ ρ) (task : Task) : Step σ ρ (Except LaunchError Verdict) := do
  let s ← get
  let (r, host) := c.host.call task s.host
  set { s with host }
  match r with
  | .ok v => return .ok v
  | .error (.launch e) => return .error e
  | .error .cancelled => throw .cancelled
  | .error (.terminate e) => throw (.terminate e)
  | .error .unfinished => throw .unfinished

/-- Returns the working tree to the last commit, or ends the campaign. -/
def restore (c : Setup σ ρ) (how : Restore) : Step σ ρ Unit := do
  match ← call c how.task with
  | .ok .success => return ()
  | .ok .failure => throw (.restore (.refused how c.crate.root))
  | .error e => throw (.restore (.launch how e))

/-- Draws a batch of candidates. -/
def draw (c : Setup σ ρ) : Step σ ρ (List Candidate) := do
  let s ← get
  let (files, host) := c.host.survey s.host
  let r := Sampling.sample c.parser c.source files c.crate c.settings.minBatch.val
    c.settings.maxBatch.val s.random
  set { s with random := r.random, host }
  r.log.forM (note c)
  match r.batch with
  | .ok batch => return batch
  | .error e => throw (.sample e)

/-- Shows the batch about to be tried. -/
def showBatch (c : Setup σ ρ) (iteration : Nat) (batch : List Candidate) : Step σ ρ Unit := do
  match c.host.display with
  | none => return ()
  | some d =>
    let s ← get
    let (r, host) := d.batch iteration batch s.host
    set { s with host }
    match r with
    | .ok () => return ()
    | .error e => throw (.display e)

/-- Shows what came of an iteration. -/
def showStatus (c : Setup σ ρ) (iteration : Nat) (outcome : Outcome) : Step σ ρ Unit := do
  match c.host.display with
  | none => return ()
  | some d => modify fun s => { s with host := d.status iteration outcome s.host }

/-- Makes the edits of a batch; an edit that does not fit its file ends the campaign. -/
def edit (c : Setup σ ρ) (batch : List Candidate) : Step σ ρ (Except SourceError Unit) := do
  let s ← get
  let (r, host) := Batch.apply c.host.write batch s.host
  set { s with host }
  match r with
  | .ok _ => return .ok ()
  | .error (.source e) => return .error e
  | .error (.region e) => throw (.region e)

/-- Formats the code, if that works. -/
def format (c : Setup σ ρ) : Step σ ρ Unit := do
  match ← call c .format with
  | .ok .success => return ()
  | .ok .failure => say c .warning "cargo fmt failed; committing unformatted code"
  | .error e => say c .warning s!"Formatting skipped: {e.message}"

/-- Commits the batch; whether that worked. -/
def commit (c : Setup σ ρ) : Step σ ρ Bool := do
  match ← call c (.commit c.settings.commitMessage) with
  | .ok .success => return true
  | .ok .failure =>
    say c .error "git commit failed"
    return false
  | .error e =>
    say c .error e.message
    return false

/-- Ends an iteration: unless the batch was committed, its edits are discarded. -/
def finish (c : Setup σ ρ) (iteration : Nat) (outcome : Outcome) (batch : List Candidate) :
    Step σ ρ Outcome := do
  if outcome ≠ .passed then
    enter .reverting
    restore c .discard
  enter .clean
  modify fun s => { s with stats := s.stats.count outcome batch.length }
  say c .debug s!"Iteration {iteration}: {outcome.name}"
  showStatus c iteration outcome
  return outcome

/-- Has the edited crate tested, and commits it if the tests pass. -/
def validate (c : Setup σ ρ) : Step σ ρ Outcome := do
  enter .validating
  match ← call c .test with
  | .error e =>
    say c .error e.message
    return .error
  | .ok .failure => return .failed
  | .ok .success =>
    enter .committing
    if c.settings.format then format c
    return if ← commit c then .passed else .error

/-- Makes the edits of a batch and judges them. -/
def attempt (c : Setup σ ρ) (batch : List Candidate) : Step σ ρ Outcome := do
  enter .mutating
  match ← edit c batch with
  | .error e =>
    say c .error s!"Applying mutations failed: {e.message}"
    return .error
  | .ok () => validate c

/-- One iteration. -/
def iterate (c : Setup σ ρ) : Step σ ρ Outcome := do
  let iteration := (← get).stats.iterations + 1
  restore c .reset
  enter .clean
  let batch ← draw c
  showBatch c iteration batch
  let outcome ← attempt c batch
  finish c iteration outcome batch

/-! ### Runs -/

/-- Whether the settings admit another iteration. -/
def isDue (settings : Settings) (stats : Stats) : Bool :=
  match settings.maxIterations with
  | none => true
  | some limit => stats.iterations < limit.val

/-- Iterates until the limit of the settings is reached; whether it was within `rounds`
iterations. -/
def run (c : Setup σ ρ) : (rounds : Nat) → Step σ ρ Bool
  | 0 => do return !isDue c.settings (← get).stats
  | rounds + 1 => do
    if isDue c.settings (← get).stats then
      let _ ← iterate c
      run c rounds
    else return true

end Tighten.Campaign
