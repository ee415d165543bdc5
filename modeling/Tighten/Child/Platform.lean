import Tighten.Command
import Tighten.Log

/-
What the operating system offers for child processes.

A platform answers requests from a state of its own, so that anything may happen in between: a child
may exit, and the user may interrupt, at any moment.  Nothing else is said about it here.

What was asked and answered can be recorded, whatever the platform.  The record is what statements
about the order of requests speak of.
-/
namespace Tighten.Child

/-- When the token is looked at. -/
inductive Look where
  /-- Before anything is started. -/
  | entry
  /-- While a child runs. -/
  | poll
deriving DecidableEq, Repr

/-- Where a stream of a child goes. -/
inductive Stream where
  /-- Nowhere: reading gives nothing. -/
  | null
  /-- Where the parent's goes. -/
  | inherited
  /-- Where the child's own output goes. -/
  | output
deriving DecidableEq, Repr

/-- How to start a child. -/
structure Launch where
  command : Command
  directory : String
  /-- Whether the child leads a session, and so a process group, of its own. -/
  newSession : Bool
  stdin : Stream := .null
  stdout : Stream := .inherited
  stderr : Stream := .output
deriving DecidableEq, Repr

/-- A process number. -/
abbrev Pid := Nat

/-- A platform with states in `σ`. -/
structure Platform (σ : Type) where
  /-- Whether the token is set. -/
  isCancelled : Look → σ → Bool × σ
  /-- Starts a child. -/
  start : Launch → σ → Except OsError Pid × σ
  /-- Waits for one interval; the exit status if the child has exited by then. -/
  waitBriefly : Pid → σ → Option Int × σ
  /-- Waits until the child has exited. -/
  wait : Pid → σ → Int × σ
  /-- Asks every process of the child's group to stop; the error if that is refused. -/
  stopGroup : Pid → σ → Option Errno × σ
  /-- Asks the child alone to stop; the error if that is refused. -/
  stop : Pid → σ → Option Errno × σ
  /-- The exit status, if the child has exited. -/
  exited? : Pid → σ → Option Int × σ
  /-- Notes a log line. -/
  log : LogLine → σ → σ

/-- A request and its answer. -/
inductive Event where
  | looked (look : Look) (cancelled : Bool)
  | started (launch : Launch) (result : Except OsError Pid)
  | waitedBriefly (pid : Pid) (status : Option Int)
  | waited (pid : Pid) (status : Int)
  | stoppedGroup (pid : Pid) (refusal : Option Errno)
  | stopped (pid : Pid) (refusal : Option Errno)
  | asked (pid : Pid) (status : Option Int)
  | logged (line : LogLine)

/-- A request whose answer is recorded after those before it. -/
def recording {σ α : Type} (request : σ → α × σ) (event : α → Event) :
    σ × List Event → α × (σ × List Event) :=
  fun (s, events) =>
    let (a, s) := request s
    (a, (s, events ++ [event a]))

/-- The platform that records what is asked of it and what it answers. -/
def Platform.recorded {σ : Type} (p : Platform σ) : Platform (σ × List Event) where
  isCancelled look := recording (p.isCancelled look) (.looked look)
  start launch := recording (p.start launch) (.started launch)
  waitBriefly pid := recording (p.waitBriefly pid) (.waitedBriefly pid)
  wait pid := recording (p.wait pid) (.waited pid)
  stopGroup pid := recording (p.stopGroup pid) (.stoppedGroup pid)
  stop pid := recording (p.stop pid) (.stopped pid)
  exited? pid := recording (p.exited? pid) (.asked pid)
  log line := fun (s, events) => (p.log line s, events ++ [.logged line])

end Tighten.Child
