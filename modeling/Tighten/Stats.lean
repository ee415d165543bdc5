/-
The outcomes of iterations and how they are counted.
-/
namespace Tighten

/-- What came of an iteration. -/
inductive Outcome where
  /-- The batch passed the tests and was committed. -/
  | passed
  /-- The tests failed. -/
  | failed
  /-- The batch could not be written, tested or committed. -/
  | error
deriving DecidableEq, Repr

namespace Outcome

/-- The word for an outcome. -/
def name : Outcome → String
  | .passed => "pass"
  | .failed => "fail"
  | .error => "error"

/-- The outcome that a word stands for. -/
def ofName? (word : String) : Option Outcome :=
  [passed, failed, error].find? fun o => o.name == word

end Outcome

/-- The counters of a campaign. -/
structure Stats where
  iterations : Nat := 0
  passed : Nat := 0
  failed : Nat := 0
  errors : Nat := 0
  /-- The candidates in all batches that were committed. -/
  committed : Nat := 0
deriving DecidableEq, Repr

/-- The counters after an iteration with a batch of some size. -/
def Stats.count (s : Stats) (outcome : Outcome) (size : Nat) : Stats :=
  let s := { s with iterations := s.iterations + 1 }
  match outcome with
  | .passed => { s with passed := s.passed + 1, committed := s.committed + size }
  | .failed => { s with failed := s.failed + 1 }
  | .error => { s with errors := s.errors + 1 }

end Tighten
