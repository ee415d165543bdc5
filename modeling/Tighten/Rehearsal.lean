import Tighten.Campaign.Host

/-
Rehearsals: campaigns with tools that follow a script.

Nothing is compiled or committed in a rehearsal.  The script says, task by task, what each call comes
to; the last word on a task holds for all further calls.  Files are those of a workspace, and the
history is the files as they were last recorded: by the first return to the last commit, since the
rehearsal begins with everything committed, and by every commit.
-/
namespace Tighten.Rehearsal

/-- What a call comes to. -/
inductive Cue where
  | success
  | failure
  /-- The tool is not found. -/
  | launch
  /-- The user interrupts. -/
  | cancel
deriving DecidableEq, Repr

/-- The cues for the calls to come, task by task. -/
structure Script where
  test : List Cue := [.success]
  format : List Cue := [.success]
  reset : List Cue := [.success]
  discard : List Cue := [.success]
  commit : List Cue := [.success]
deriving DecidableEq, Repr

/-- The next cue, and the cues after it; the last one stays. -/
def next : List Cue → Cue × List Cue
  | [] => (.success, [])
  | [c] => (c, [c])
  | c :: rest => (c, rest)

/-- The cue for a task, and the script after it. -/
def Script.cue (s : Script) : Task → Cue × Script
  | .test => let (c, rest) := next s.test; (c, { s with test := rest })
  | .format => let (c, rest) := next s.format; (c, { s with format := rest })
  | .reset => let (c, rest) := next s.reset; (c, { s with reset := rest })
  | .discard => let (c, rest) := next s.discard; (c, { s with discard := rest })
  | .commit _ => let (c, rest) := next s.commit; (c, { s with commit := rest })

/-- What a rehearsal is played in. -/
structure Stage where
  workspace : Workspace
  script : Script := {}
  /-- The files of the last commit, once they are known. -/
  committed : Option (List (List String × List UInt8)) := none
  /-- What is to be obstructed when each further batch is shown. -/
  obstacles : List (List (List String)) := []
deriving DecidableEq, Repr

namespace Stage

/-- The files as they are become those of the last commit. -/
def record (s : Stage) : Stage :=
  { s with committed := some s.workspace.files }

/-- The files become those of the last commit. -/
def restore (s : Stage) : Stage :=
  match s.committed with
  | none => s.record
  | some saved => { s with workspace := s.workspace.restore saved }

/-- What a task does when it succeeds. -/
def succeed (s : Stage) : Task → Stage
  | .test => s
  | .format => s
  | .reset => s.restore
  | .discard => s.restore
  | .commit _ => s.record

/-- Plays one call of a task, with the command line that an error would name. -/
def play (s : Stage) (task : Task) (argv : List String) : Except RunError Verdict × Stage :=
  let (cue, script) := s.script.cue task
  let s := { s with script }
  match cue with
  | .success => (.ok .success, s.succeed task)
  | .failure => (.ok .failure, s)
  | .launch => (.error (.launch ⟨argv, "not found"⟩), s)
  | .cancel => (.error .cancelled, s)

/-- Replaces files by empty directories, as often as there is an entry for it. -/
def obstruct (s : Stage) : Stage :=
  match s.obstacles with
  | [] => s
  | places :: rest =>
    { s with workspace := places.foldl Workspace.obstruct s.workspace, obstacles := rest }

/-- Writes to the files of the workspace. -/
def writer : Writer Stage := fun path bytes s =>
  let (r, workspace) := Workspace.writer path bytes s.workspace
  (r, { s with workspace })

end Stage

/-- The short command line of a task. -/
def shortCommand : Task → List String
  | .test => ["cargo", "test"]
  | .format => ["cargo", "fmt"]
  | .reset => ["git", "reset"]
  | .discard => ["git", "discard"]
  | .commit _ => ["git", "commit"]

/-- The display of a rehearsal. -/
def display : Campaign.Display Stage where
  batch _ _ := fun s => (.ok (), s.obstruct)
  status _ _ := fun s => s

/-- The host of a rehearsal, with or without a display. -/
def host (watched : Bool) : Campaign.Host Stage where
  survey := fun s => (s.workspace, s)
  write := Stage.writer
  call task := fun s => s.play task (shortCommand task)
  log _ := fun s => s
  display := if watched then some display else none

end Tighten.Rehearsal
