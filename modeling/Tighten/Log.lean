/-
Log lines.
-/
namespace Tighten

/-- How much a log line matters. -/
inductive LogLevel where
  | debug
  | info
  | warning
  | error
deriving DecidableEq, Repr

namespace LogLevel

/-- The name of a level. -/
def name : LogLevel → String
  | .debug => "DEBUG"
  | .info => "INFO"
  | .warning => "WARNING"
  | .error => "ERROR"

/-- The levels in order of weight. -/
def weight : LogLevel → Nat
  | .debug => 10
  | .info => 20
  | .warning => 30
  | .error => 40

end LogLevel

/-- A message of one part of the program. -/
structure LogLine where
  level : LogLevel
  /-- The part of the program that speaks. -/
  logger : String
  message : String
deriving DecidableEq, Repr

namespace LogLine

/-- The line as it is printed. -/
def toText (l : LogLine) : String :=
  s!"{l.level.name} {l.logger}: {l.message}"

/-- Whether the line is at least of a level. -/
def atLeast (level : LogLevel) (l : LogLine) : Bool :=
  level.weight ≤ l.level.weight

end LogLine

end Tighten
