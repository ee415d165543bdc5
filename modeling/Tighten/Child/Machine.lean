import Tighten.Child.Platform
import Tighten.Shell

/-
A machine in which commands run without processes.

A command runs from start to end at once, in a shell's time; what it printed, and when, is known from
then on.  The machine's own time goes on only while somebody waits.  So a command has exited when
the machine's time has passed its end, and a command that is stopped has printed what it printed
before that moment.
-/
namespace Tighten.Child

/-- A child of the machine. -/
structure Job where
  /-- What it prints if it is left alone, and when. -/
  printed : List (Nat × String)
  /-- When it exits by itself. -/
  finish : Nat
  status : Int
  /-- When it was stopped. -/
  stoppedAt : Option Nat := none
deriving DecidableEq, Repr

/-- A machine with at most one child at a time. -/
structure Machine where
  workspace : Workspace
  environment : List (String × String)
  /-- The look at the token that first finds it set, if any. -/
  cancelAt : Option Nat := none
  looks : Nat := 0
  clock : Nat := 0
  child : Option Job := none
deriving DecidableEq, Repr

/-- The milliseconds of one short wait. -/
def briefWait : Nat := 20

/-- How a stopped process ends. -/
def stoppedStatus : Int := -15

namespace Job

/-- The exit status, if the process has exited before a moment. -/
def exited? (p : Job) (moment : Nat) : Option Int :=
  if p.stoppedAt.isSome then some stoppedStatus
  else if p.finish < moment then some p.status
  else none

/-- What the process has printed up to its end. -/
def output (p : Job) : String :=
  let inTime := p.printed.filter fun (t, _) => match p.stoppedAt with
    | some moment => t < moment
    | none => t ≤ p.finish
  String.join ((inTime.mergeSort fun a b => a.1 ≤ b.1).map (·.2))

end Job

namespace Machine

/-- The shell that a command starts in. -/
def shell (m : Machine) (launch : Launch) : Shell.State where
  workspace := m.workspace
  directory := m.workspace.base.join (Path.ofText launch.directory)
  environment := launch.command.env.reverse ++ m.environment

/-- Why a program is not found, or is not one. -/
def launchError (s : Shell.State) (argv0 : String) : Errno :=
  if argv0 = "" then .denied
  else if argv0.contains '/' then
    match s.workspace.locate (s.pathOf argv0) with
    | .ok place => if (s.workspace.entry? place).isSome then .denied else .noEntry
    | .error .isDirectory => .denied
    | .error e => e
  else .noEntry

/-- Whether a program can be looked for by its name. -/
def isReachable (s : Shell.State) (argv0 : String) : Bool :=
  Shell.programName argv0 != argv0 || (!argv0.contains '/' && s.findsPrograms)

/-- Starts a child: in a directory that is there, a program that can be run. -/
def start (m : Machine) (launch : Launch) : Except OsError Pid × Machine :=
  let s := m.shell launch
  let argv0 := launch.command.program
  match m.workspace.locate s.directory with
  | .error e => (.error ⟨if e = .isDirectory then .noEntry else e, launch.directory⟩, m)
  | .ok place =>
    match m.workspace.entry? place with
    | none => (.error ⟨.noEntry, launch.directory⟩, m)
    | some (.file _) => (.error ⟨.notDirectory, launch.directory⟩, m)
    | some .directory =>
      let ran := if isReachable s argv0 then Shell.runCommand s launch.command.argv else none
      match ran with
      | none => (.error ⟨launchError s argv0, argv0⟩, m)
      | some s =>
        let child : Job := {
          printed := s.printed.map fun (t, text) => (m.clock + t, text)
          finish := m.clock + s.clock
          status := s.exitStatus }
        (.ok Shell.shellPid, { m with child := some child, workspace := s.workspace })

/-- The exit status of the child, if it has exited. -/
def exited? (m : Machine) : Option Int :=
  match m.child with
  | none => some 0
  | some p => p.exited? m.clock

/-- The machine after its child was stopped. -/
def stop (m : Machine) : Machine :=
  { m with child := m.child.map fun p => { p with stoppedAt := some m.clock } }

/-- What the child printed. -/
def output (m : Machine) : String :=
  (m.child.map Job.output).getD ""

/-- The platform that the machine is. -/
def platform : Platform Machine where
  isCancelled _ := fun m =>
    let looks := m.looks + 1
    (m.cancelAt.any (· ≤ looks), { m with looks })
  start launch := fun m => m.start launch
  waitBriefly _ := fun m =>
    let m := { m with clock := m.clock + briefWait }
    (m.exited?, m)
  wait _ := fun m => (m.exited?.getD ((m.child.map Job.status).getD 0), m)
  stopGroup _ := fun m => (none, m.stop)
  stop _ := fun m => (none, m.stop)
  exited? _ := fun m => (m.exited?, m)
  log _ := fun m => m

end Machine

end Tighten.Child
