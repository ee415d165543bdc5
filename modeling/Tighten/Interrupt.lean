import Tighten.Log

/-
Interrupting a campaign.

A token is set once and stays set.  The user's interrupt sets it; whoever works for a long time
looks at it from time to time and stops in an orderly way.
-/
namespace Tighten

/-- Whether work is to stop. -/
structure Token where
  cancelled : Bool := false
deriving DecidableEq, Repr

/-- Work was stopped because the token was set. -/
def cancelledMessage : String := "interrupted"

/-- Who speaks in the log lines of this module. -/
def interruptLogger : String := "retypist.interrupt"

namespace Token

/-- The token once it is set. -/
def cancel (_ : Token) : Token := ⟨true⟩

/-- The token after the user's interrupt, of which only the first is logged. -/
def interrupt (t : Token) : Token × List LogLine :=
  (t.cancel,
    if t.cancelled then [] else [⟨.info, interruptLogger, "Interrupt received, stopping"⟩])

end Token

end Tighten
