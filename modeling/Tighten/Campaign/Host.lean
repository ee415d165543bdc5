import Tighten.Console
import Tighten.Sampling
import Tighten.Tools

/-
The world around a campaign.

A campaign reads and writes files, calls its tools, shows the user what it does and keeps a log.
All of this goes through a host, which answers from a state of its own.  A host may do anything
that its answers admit: writes may fail, tools may change files, and a tool may answer today and
not tomorrow.

What was asked and answered can be recorded, whatever the host.
-/
namespace Tighten.Campaign

/-- A place where the user can watch. -/
structure Display (σ : Type) where
  /-- Shows the batch about to be tried in an iteration. -/
  batch : Nat → List Candidate → σ → Except Console.MarkupError Unit × σ
  /-- Shows what came of an iteration. -/
  status : Nat → Outcome → σ → σ

/-- A host with states in `σ`. -/
structure Host (σ : Type) where
  /-- Looks at the files as they are now. -/
  survey : σ → Workspace × σ
  write : Writer σ
  /-- Has a task done by a tool. -/
  call : Task → σ → Except RunError Verdict × σ
  log : LogLine → σ → σ
  /-- Where the user watches, if anywhere. -/
  display : Option (Display σ)

/-- What a campaign did in the sight of its host. -/
inductive Event where
  | surveyed (files : Workspace)
  | wrote (path : Path) (bytes : List UInt8) (result : Except OsError Unit)
  | called (task : Task) (result : Except RunError Verdict)
  | showedBatch (iteration : Nat) (batch : List Candidate)
  | showedStatus (iteration : Nat) (outcome : Outcome)
  | logged (line : LogLine)

/-- A display whose requests are recorded. -/
def Display.recorded {σ : Type} (d : Display σ) : Display (σ × List Event) where
  batch n candidates := fun (s, events) =>
    let (r, s) := d.batch n candidates s
    (r, (s, events ++ [.showedBatch n candidates]))
  status n outcome := fun (s, events) =>
    (d.status n outcome s, events ++ [.showedStatus n outcome])

/-- The host that records what is asked of it and what it answers. -/
def Host.recorded {σ : Type} (h : Host σ) : Host (σ × List Event) where
  survey := fun (s, events) =>
    let (files, s) := h.survey s
    (files, (s, events ++ [.surveyed files]))
  write path bytes := fun (s, events) =>
    let (r, s) := h.write path bytes s
    (r, (s, events ++ [.wrote path bytes r]))
  call task := fun (s, events) =>
    let (r, s) := h.call task s
    (r, (s, events ++ [.called task r]))
  log line := fun (s, events) => (h.log line s, events ++ [.logged line])
  display := h.display.map Display.recorded

/-- Has tasks done by running the commands of some tools in a directory. -/
def callTools {σ : Type} (tools : Tools) (directory : String) (run : Executor σ) (task : Task) :
    σ → Except RunError Verdict × σ :=
  run (tools.command task) directory

end Tighten.Campaign
