import Tighten.Child.Platform

/-
Running a command while watching for an interrupt.

The token is looked at before the child is started and before every wait.  Waits are short, so an
interrupt is noticed soon.  Once it is noticed the child is stopped, its exit is collected, and the
command counts as cancelled, however the child ended.

A child can run for ever, so the number of looks is bounded; a bound that runs out is an answer of
its own.
-/
namespace Tighten.Child

/-- How a child is stopped. -/
inductive Terminator where
  /-- With every process of its group, which it leads. -/
  | group
  /-- Alone. -/
  | native
deriving DecidableEq, Repr

namespace Terminator

/-- The way to stop children on a kind of operating system. -/
def usual (system : String) : Terminator :=
  if system = "posix" then .group else .native

/-- The name of a way to stop children. -/
def name : Terminator → String
  | .group => "ProcessGroupTerminator"
  | .native => "NativeTerminator"

/-- Whether a child has to lead a session of its own to be stopped this way. -/
def newSession : Terminator → Bool
  | .group => true
  | .native => false

/-- Stops a child and collects its exit.  A group that is gone needs no stopping, nor does a child
that has exited in the meantime. -/
def terminate {σ : Type} (t : Terminator) (p : Platform σ) (pid : Pid) (s : σ) :
    Except TerminateError Unit × σ :=
  match t with
  | .group =>
    match p.stopGroup pid s with
    | (none, s) =>
      let (_, s) := p.wait pid s
      (.ok (), s)
    | (some .noProcess, s) => (.ok (), s)
    | (some e, s) => (.error ⟨pid, e⟩, s)
  | .native =>
    match p.stop pid s with
    | (none, s) =>
      let (_, s) := p.wait pid s
      (.ok (), s)
    | (some e, s) =>
      match p.exited? pid s with
      | (some _, s) => (.ok (), s)
      | (none, s) => (.error ⟨pid, e⟩, s)

end Terminator

/-- Who speaks in the log lines of this module. -/
def runnerLogger : String := "retypist.process"

/-- A detail noted while a command runs. -/
def detail (message : String) : LogLine :=
  ⟨.debug, runnerLogger, message⟩

/-- Watches a child until it exits or the token is set, `looks` times at most. -/
def watch {σ : Type} (t : Terminator) (p : Platform σ) (program : String) (pid : Pid) :
    (looks : Nat) → σ → Except RunError Int × σ
  | 0, s => (.error .unfinished, s)
  | looks + 1, s =>
    match p.isCancelled .poll s with
    | (true, s) =>
      let s := p.log (detail s!"Terminating {program} (pid {pid})") s
      match t.terminate p pid s with
      | (.ok (), s) => (.error .cancelled, s)
      | (.error e, s) => (.error (.terminate e), s)
    | (false, s) =>
      match p.waitBriefly pid s with
      | (some status, s) => (.ok status, s)
      | (none, s) => watch t p program pid looks s

/-- Runs a command in a directory. -/
def run {σ : Type} (t : Terminator) (p : Platform σ) (looks : Nat) : Executor σ :=
  fun command directory s =>
    match p.isCancelled .entry s with
    | (true, s) => (.error .cancelled, s)
    | (false, s) =>
      let line := " ".intercalate command.argv
      let s := p.log (detail s!"Running {line} in {directory}") s
      let launch : Launch := { command, directory, newSession := t.newSession }
      match p.start launch s with
      | (.error e, s) => (.error (.launch ⟨command.argv, e.message⟩), s)
      | (.ok pid, s) =>
        match watch t p command.program pid looks s with
        | (.error e, s) => (.error e, s)
        | (.ok status, s) =>
          let s := if status = 0 then s
            else p.log (detail s!"{command.program} exited with status {status}") s
          (.ok (.ofStatus status), s)

end Tighten.Child
