import Tighten.OsError

/-
Commands: what to run, and what came of it.
-/
namespace Tighten

/-- A command: a program with its arguments, and variables to add to its environment. -/
structure Command where
  argv : List String
  env : List (String × String) := []
deriving DecidableEq, Repr

/-- The name of the program. -/
def Command.program (c : Command) : String :=
  c.argv.headD ""

/-- How a command ended that ran to its end. -/
inductive Verdict where
  | success
  | failure
deriving DecidableEq, Repr

/-- The word for a verdict. -/
def Verdict.name : Verdict → String
  | .success => "success"
  | .failure => "failure"

/-- The verdict on an exit status: zero is success. -/
def Verdict.ofStatus (status : Int) : Verdict :=
  if status = 0 then .success else .failure

/-- A program could not be started. -/
structure LaunchError where
  argv : List String
  reason : String
deriving DecidableEq, Repr

/-- Which command could not be started and why. -/
def LaunchError.message (e : LaunchError) : String :=
  "failed to spawn " ++ " ".intercalate e.argv ++ ": " ++ e.reason

/-- A running program could not be stopped. -/
structure TerminateError where
  pid : Nat
  errno : Errno
deriving DecidableEq, Repr

/-- Which process could not be stopped and why. -/
def TerminateError.message (e : TerminateError) : String :=
  s!"failed to terminate child {e.pid}: {e.errno.describe}"

/-- Why a command did not run to its end. -/
inductive RunError where
  | launch (error : LaunchError)
  | cancelled
  | terminate (error : TerminateError)
  /-- The command was still running when there was no more time to look at it. -/
  | unfinished
deriving DecidableEq, Repr

/-- A way of running a command in a directory, where the world is a state `σ`. -/
abbrev Executor (σ : Type) := Command → (directory : String) → σ → Except RunError Verdict × σ

end Tighten
