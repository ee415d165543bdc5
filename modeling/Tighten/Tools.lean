import Tighten.Command
import Tighten.Settings

/-
The tools that a campaign drives: one builds, tests and formats the crate, the other keeps its
history.

A tool's program can be chosen three ways.  A name given outright wins if it is not empty; then a
variable of the environment, even an empty one; then the usual name.
-/
namespace Tighten

/-- What a campaign asks of its tools. -/
inductive Task where
  /-- Build and test the whole crate. -/
  | test
  /-- Format the code. -/
  | format
  /-- Make the index and the working tree those of the last commit. -/
  | reset
  /-- Throw away edits that are not committed. -/
  | discard
  /-- Commit every modified file. -/
  | commit (message : String)
deriving DecidableEq, Repr

/-- The program of a tool. -/
def chooseProgram (given fromEnv : Option String) (usual : String) : String :=
  match given with
  | some name => if name = "" then fromEnv.getD usual else name
  | none => fromEnv.getD usual

/-- The tool that builds, tests and formats. -/
structure Cargo where
  program : String
  extraArgs : List String := []
  rustflags : String := defaultRustflags
deriving DecidableEq, Repr

namespace Cargo

/-- The variable that names the program. -/
def envName : String := "CARGO"

/-- The usual name of the program. -/
def usual : String := "cargo"

/-- Tests the crate with the flags that make warnings errors. -/
def test (c : Cargo) : Command :=
  ⟨c.program :: "test" :: c.extraArgs, [("RUSTFLAGS", c.rustflags)]⟩

/-- Formats the crate. -/
def format (c : Cargo) : Command := ⟨[c.program, "fmt"], []⟩

end Cargo

/-- The tool that keeps the history. -/
structure Git where
  program : String
deriving DecidableEq, Repr

namespace Git

/-- The variable that names the program. -/
def envName : String := "GIT"

/-- The usual name of the program. -/
def usual : String := "git"

/-- Makes the index and the working tree those of the last commit. -/
def reset (g : Git) : Command := ⟨[g.program, "reset", "--hard", "--quiet", "HEAD"], []⟩

/-- Throws away edits to tracked files. -/
def discard (g : Git) : Command := ⟨[g.program, "checkout", "--quiet", "--", "."], []⟩

/-- Commits every modified tracked file. -/
def commit (g : Git) (message : String) : Command :=
  ⟨[g.program, "commit", "--all", "--quiet", "-m", message], []⟩

end Git

/-- The tools of a campaign. -/
structure Tools where
  cargo : Cargo
  git : Git
deriving DecidableEq, Repr

/-- The command for a task. -/
def Tools.command (tools : Tools) : Task → Command
  | .test => tools.cargo.test
  | .format => tools.cargo.format
  | .reset => tools.git.reset
  | .discard => tools.git.discard
  | .commit message => tools.git.commit message

end Tighten
