import Tighten.Random.Twister
import Tighten.Rehearsal.Document

/-
The executable.

It opens no files and starts no programs itself: the crate that it works on, and what the tools come
to, are described by a JSON document on its standard input.  Everything it does with them is the
program's own.
-/
namespace Tighten.Executable

/-- All that is left to be read from a stream. -/
partial def readAll (stream : IO.FS.Stream) (read : String) : IO String := do
  let line ← stream.getLine
  if line.isEmpty then return read else readAll stream (read ++ line)

/-- The exit status for the way the program ended. -/
def exitStatus : Program.Ending → UInt32
  | .exit status => status.toUInt32
  | .escape _ => 1
  | .unfinished => 1

/-- The most iterations of a campaign without a limit of its own. -/
def mostRounds : Nat := 100000

/-- The version of the rules that fields follow. -/
def rulesVersion : String := "2"

/-- Performs what the words of the command line ask for. -/
def execute (words : List String) : IO UInt32 := do
  let text ← readAll (← IO.getStdin) ""
  let libraries := Rehearsal.libraries rulesVersion
  let document ← match Json.parse libraries.nesting.val (if text.isEmpty then "null" else text) with
    | .ok document => pure document
    | .error e => throw (IO.userError e.message)
  let (ending, session) := Program.outcome (Rehearsal.system libraries) Rust.parse
    Twister.source Twister.ofSeed mostRounds (Rehearsal.startOf document words)
    (Rehearsal.Session.ofJson document)
  (← IO.getStdout).putStr session.stdout
  (← IO.getStderr).putStr session.stderr
  if let .escape error := ending then
    (← IO.getStderr).putStrLn (error.message libraries)
  return exitStatus ending

end Tighten.Executable

/-- The entry point. -/
def main (words : List String) : IO UInt32 :=
  Tighten.Executable.execute words
