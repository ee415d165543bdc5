import Tighten.Program
import Tighten.Rehearsal
import Tighten.Rehearsal.Console

/-
A session: the whole program in rehearsal.

The program runs on the files of a workspace, its commands follow a script, and what it prints and
which commands it asks for are kept.
-/
namespace Tighten.Rehearsal

/-- A command that the program asked for. -/
structure Call where
  command : Command
  directory : String
  pollInterval : Double
deriving DecidableEq, Repr

/-- What a session has come to. -/
structure Session where
  stage : Stage
  stdout : String := ""
  stderr : String := ""
  calls : List Call := []
deriving DecidableEq, Repr

/-- The task that a command line is for, by its first argument. -/
def taskOf? (command : Command) : Option Task :=
  match command.argv[1]? with
  | some "test" => some .test
  | some "fmt" => some .format
  | some "reset" => some .reset
  | some "checkout" => some .discard
  | some "commit" => some (.commit (command.argv.getLast?.getD ""))
  | _ => none

/-- Plays a command, and keeps that it was asked for. -/
def execute (pollInterval : Double) : Executor Session := fun command directory s =>
  let s := { s with calls := s.calls ++ [⟨command, directory, pollInterval⟩] }
  match taskOf? command with
  | none => (.ok .success, s)
  | some task =>
    let (r, stage) := s.stage.play task command.argv
    (r, { s with stage })

/-- What a rehearsal has for libraries. -/
def libraries (version : String) : Program.Libraries where
  console := rules
  nesting := ⟨900, by decide⟩
  fields := ⟨version, fun _ => true⟩

/-- The system of a session. -/
def system (libraries : Program.Libraries) : Program.System Session where
  libraries
  workspace s := s.stage.workspace
  write path bytes := fun s =>
    let (r, stage) := Stage.writer path bytes s.stage
    (r, { s with stage })
  execute := execute
  print text := fun s => { s with stdout := s.stdout ++ text }
  complain text := fun s => { s with stderr := s.stderr ++ text }
  freshSeed s := (0, s)

end Tighten.Rehearsal
