import Tighten.Campaign
import Tighten.Child.Runner
import Tighten.Interrupt

/-
A campaign among child processes and interrupts.

The commands of a campaign run as child processes, one after the other, and one token tells the
campaign and whoever runs its commands that the user wants to stop.  The token is the campaign's
own; everything else lies outside and may do as it likes.  In particular the user may interrupt
after any request, in the middle of a command or between two commands, and what happens then is what
the handler of interrupts does.

All that happens is kept in order, each request with what the token was before it and after it.
-/
namespace Tighten.Campaign

/-- What lies outside a campaign, with states in `τ`. -/
structure Outside (τ : Type) where
  survey : τ → Workspace × τ
  write : Writer τ
  display : Option (Display τ)
  log : LogLine → τ → τ
  start : Child.Launch → τ → Except OsError Child.Pid × τ
  waitBriefly : Child.Pid → τ → Option Int × τ
  wait : Child.Pid → τ → Int × τ
  stopGroup : Child.Pid → τ → Option Errno × τ
  stop : Child.Pid → τ → Option Errno × τ
  exited? : Child.Pid → τ → Option Int × τ
  /-- Whether the user interrupts now. -/
  interrupts : τ → Bool × τ

/-- Something that was asked of the outside, by the campaign or by whoever runs its commands. -/
inductive Act where
  | campaign (event : Event)
  | child (event : Child.Event)

/-- A request, and whether the token was set when it was made and when it was over. -/
structure Moment where
  act : Act
  before : Bool
  after : Bool

/-- The token, the outside, and what has happened so far. -/
structure World (τ : Type) where
  token : Token := {}
  outside : τ
  trace : List Moment := []

namespace World

variable {τ : Type}

/-- The world with a request noted, during which the token has become what it is now. -/
def noted (w : World τ) (act : Act) (before : Bool) : World τ :=
  { w with trace := w.trace ++ [⟨act, before, w.token.cancelled⟩] }

/-- The world once the outside has reached a state, where the user may interrupt. -/
def reached (o : Outside τ) (w : World τ) (outside : τ) : World τ :=
  match o.interrupts outside with
  | (false, outside) => { w with outside }
  | (true, outside) =>
    let (token, lines) := w.token.interrupt
    { w with token, outside := lines.foldl (fun s line => o.log line s) outside }

/-- The world after a request that the outside has answered. -/
def did (o : Outside τ) (w : World τ) (act : Act) (outside : τ) : World τ :=
  (w.reached o outside).noted act w.token.cancelled

/-- A request that the outside answers. -/
def ask {α : Type} (o : Outside τ) (request : τ → α × τ) (act : α → Act) (w : World τ) :
    α × World τ :=
  let (a, outside) := request w.outside
  (a, w.did o (act a) outside)

end World

namespace Outside

variable {τ : Type}

/-- The outside as child processes see it, with the campaign's token. -/
def platform (o : Outside τ) : Child.Platform (World τ) where
  isCancelled look w :=
    (w.token.cancelled, w.did o (.child (.looked look w.token.cancelled)) w.outside)
  start launch := World.ask o (o.start launch) fun r => .child (.started launch r)
  waitBriefly pid := World.ask o (o.waitBriefly pid) fun r => .child (.waitedBriefly pid r)
  wait pid := World.ask o (o.wait pid) fun r => .child (.waited pid r)
  stopGroup pid := World.ask o (o.stopGroup pid) fun r => .child (.stoppedGroup pid r)
  stop pid := World.ask o (o.stop pid) fun r => .child (.stopped pid r)
  exited? pid := World.ask o (o.exited? pid) fun r => .child (.asked pid r)
  log line w := w.did o (.child (.logged line)) (o.log line w.outside)

/-- A display outside. -/
def displayIn (o : Outside τ) (d : Display τ) : Display (World τ) where
  batch n candidates := World.ask o (d.batch n candidates) fun _ =>
    .campaign (.showedBatch n candidates)
  status n outcome w := w.did o (.campaign (.showedStatus n outcome)) (d.status n outcome w.outside)

/-- The outside as a campaign sees it, with tools that are run as child processes. -/
def host (o : Outside τ) (tools : Tools) (directory : String) (t : Child.Terminator)
    (looks : Nat) : Host (World τ) where
  survey := World.ask o o.survey fun files => .campaign (.surveyed files)
  write path bytes := World.ask o (o.write path bytes) fun r => .campaign (.wrote path bytes r)
  call task w :=
    let (r, w) := callTools tools directory (Child.run t o.platform looks) task w
    (r, w.noted (.campaign (.called task r)) w.token.cancelled)
  log line w := w.did o (.campaign (.logged line)) (o.log line w.outside)
  display := o.display.map o.displayIn

/-- A campaign over a crate among child processes. -/
def campaign {ρ : Type} (o : Outside τ) (tools : Tools) (t : Child.Terminator) (looks : Nat)
    (crate : Crate) (settings : Settings) (parser : Parser) (source : RandomSource ρ) :
    Setup (World τ) ρ :=
  ⟨crate, settings, parser, source, o.host tools crate.root.toText t looks⟩

end Outside

end Tighten.Campaign
