import Tighten.Child.Platform

/-
A child that follows a script.

For trying out the runner without real processes: the script says when the token is set, whether the
child can be started, how often a short wait is too short, how the child ends and what comes of
stopping it.
-/
namespace Tighten.Child

/-- What is to happen. -/
structure Script where
  /-- The look at the token that first finds it set, if any. -/
  cancelAt : Option Nat := none
  /-- Why the child cannot be started, if it cannot. -/
  startError : Option Errno := none
  /-- How many short waits are too short. -/
  timeouts : Nat := 0
  /-- How the child ends. -/
  status : Int := 0
  /-- Why stopping is refused, if it is. -/
  refusal : Option Errno := none
  /-- What asking after the child's exit gives. -/
  exited : Option Int := none
  pid : Pid := 4242
deriving DecidableEq, Repr

/-- How far the script has been followed. -/
structure Progress where
  looks : Nat := 0
  waits : Nat := 0
deriving DecidableEq, Repr

/-- The platform that follows a script. -/
def Script.platform (script : Script) : Platform Progress where
  isCancelled _ := fun s =>
    let looks := s.looks + 1
    (script.cancelAt.any (· ≤ looks), { s with looks })
  start launch := fun s =>
    (match script.startError with
      | some e => .error ⟨e, launch.command.program⟩
      | none => .ok script.pid, s)
  waitBriefly _ := fun s =>
    (if s.waits < script.timeouts then none else some script.status,
      { s with waits := s.waits + 1 })
  wait _ := fun s => (script.status, s)
  stopGroup _ := fun s => (script.refusal, s)
  stop _ := fun s => (script.refusal, s)
  exited? _ := fun s => (script.exited, s)
  log _ := fun s => s

end Tighten.Child
