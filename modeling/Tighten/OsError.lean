import Tighten.Text.Quoted

/-
Refusals of the operating system.
-/
namespace Tighten

/-- Why the operating system refuses. -/
inductive Errno where
  | notPermitted
  | noEntry
  | noProcess
  | notExecutable
  | noMemory
  | denied
  | notDirectory
  | isDirectory
  | invalid
  /-- A number without a text of its own here. -/
  | other (code : Nat)
deriving DecidableEq, Repr

namespace Errno

/-- The number of a refusal. -/
def code : Errno → Nat
  | .notPermitted => 1
  | .noEntry => 2
  | .noProcess => 3
  | .notExecutable => 8
  | .noMemory => 12
  | .denied => 13
  | .notDirectory => 20
  | .isDirectory => 21
  | .invalid => 22
  | .other n => n

/-- The refusals with a text of their own. -/
def known : List Errno :=
  [notPermitted, noEntry, noProcess, notExecutable, noMemory, denied, notDirectory, isDirectory,
    invalid]

/-- The refusal with this number. -/
def ofCode (n : Nat) : Errno :=
  (known.find? fun e => e.code == n).getD (.other n)

/-- The refusal in words. -/
def message : Errno → String
  | .notPermitted => "Operation not permitted"
  | .noEntry => "No such file or directory"
  | .noProcess => "No such process"
  | .notExecutable => "Exec format error"
  | .noMemory => "Cannot allocate memory"
  | .denied => "Permission denied"
  | .notDirectory => "Not a directory"
  | .isDirectory => "Is a directory"
  | .invalid => "Invalid argument"
  | .other n => s!"Unknown error {n}"

/-- The refusal with its number. -/
def describe (e : Errno) : String :=
  s!"[Errno {e.code}] {e.message}"

end Errno

/-- A refusal that concerns a path. -/
structure OsError where
  errno : Errno
  path : String
deriving DecidableEq, Repr

/-- The refusal, its number and the path. -/
def OsError.message (e : OsError) : String :=
  e.errno.describe ++ ": " ++ Text.quote e.path

end Tighten
