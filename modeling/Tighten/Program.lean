import Tighten.Campaign
import Tighten.CommandLine
import Tighten.Settings.File

/-
The program: what it does for each request.

The program works in a system that gives it files, a way to run commands, and two streams to print
to.  It is built on libraries, and a few things are up to those.  It ends with an exit status.  Some
errors are not foreseen in the program's own reports, such as a line that the console cannot print;
these end the program as they are, after what was already printed.
-/
namespace Tighten.Program

/-- What is up to the libraries that the program is built on. -/
structure Libraries where
  console : Console.Rules
  /-- The room for brackets inside each other when a document is read. -/
  nesting : Settings.Nesting
  /-- What reports on fields depend on. -/
  fields : FieldRules

/-- The system that the program works in. -/
structure System (σ : Type) where
  libraries : Libraries
  /-- The files as they are now. -/
  workspace : σ → Workspace
  write : Writer σ
  /-- Runs commands, looking at each after every interval of this many seconds. -/
  execute : (pollInterval : Double) → Executor σ
  /-- Prints for the user. -/
  print : String → σ → σ
  /-- Prints complaints and log lines. -/
  complain : String → σ → σ
  /-- A number to start random choices from. -/
  freshSeed : σ → Int × σ

/-- What the program is started with. -/
structure Start where
  words : List String
  /-- The directory it is started in. -/
  directory : Path
  /-- The variables of its environment. -/
  environment : List (String × String) := []

/-- An error that the program does not report itself. -/
inductive Escape where
  | markup (error : Console.MarkupError)
  | settings (error : Settings.LoadError)
  | listing (error : WalkError)
  | campaign (failure : Campaign.Failure)

/-- What went wrong, in words. -/
def Escape.message (libraries : Libraries) : Escape → String
  | .markup e => e.message
  | .settings e => e.message libraries.fields
  | .listing e => (SampleError.walk e).message
  | .campaign failure => failure.message

/-- How the program ends. -/
inductive Ending where
  | exit (status : Nat)
  | escape (error : Escape)
  /-- The campaign was still going on when there was no more time for it. -/
  | unfinished

/-- A part of the program: its result or how the program ends, and the system afterwards. -/
abbrev Action (σ α : Type) := ExceptT Ending (StateM σ) α

/-- The exit status after an interrupt. -/
def interruptedStatus : Nat := 130

variable {σ : Type}

/-! ### Printing -/

/-- Prints what the console made of something. -/
def put (sys : System σ) : Except Console.MarkupError String → Action σ Unit
  | .ok text => modify (sys.print text)
  | .error e => throw (.escape (.markup e))

/-- Prints a message. -/
def tell (sys : System σ) (tone : Console.Tone) (text : String) : Action σ Unit :=
  put sys (Console.message sys.libraries.console tone text)

/-- The console as the display of a campaign. -/
def display (sys : System σ) : Campaign.Display σ where
  batch n candidates := fun s =>
    let printout := Console.batch sys.libraries.console n candidates
    let s := sys.print printout.text s
    match printout.error with
    | none => (.ok (), s)
    | some e => (.error e, s)
  status n outcome := fun s =>
    match Console.status sys.libraries.console n outcome with
    | .ok text => sys.print text s
    | .error _ => s

/-! ### Crates and settings -/

/-- The crate in a directory, seen from where the program was started; without one the program
ends. -/
def openCrate (sys : System σ) (start : Start) (directory : String) : Action σ Crate := do
  let root := (start.directory.join (Path.ofText directory)).resolved
  match Crate.atRoot (sys.workspace (← get)) root with
  | .ok crate => return crate
  | .error e =>
    tell sys .error e.message
    throw (.exit 1)

/-- A whole number as an override; none leaves the setting alone. -/
def wholeOverride : Option Int → Json :=
  Settings.optionalJson .int

/-- The overrides in a request. -/
def overrides (r : CommandLine.RunRequest) : List (String × Json) :=
  [("seed", wholeOverride r.seed), ("max_iterations", wholeOverride r.maxIterations),
    ("min_batch", wholeOverride r.minBatch), ("max_batch", wholeOverride r.maxBatch),
    ("format", if r.noFormat then .bool false else .null),
    ("cargo_args", if r.cargoArgs.isEmpty then .null else .arr (r.cargoArgs.map .str))]

/-- Reports that settings are wrong, and ends the program. -/
def refuse {α : Type} (sys : System σ) (message : String) : Action σ α := do
  tell sys .error message
  throw (.exit 1)

/-- The settings for a run: those of the crate, and what is asked for differently. -/
def settingsFor (sys : System σ) (crate : Crate) (r : CommandLine.RunRequest) :
    Action σ Settings := do
  match Settings.load sys.libraries.nesting (sys.workspace (← get)) crate.root with
  | .error e@(.file ..) => refuse sys (e.message sys.libraries.fields)
  | .error e => throw (.escape (.settings e))
  | .ok settings =>
    match settings.override (overrides r) with
    | .ok settings => return settings
    | .error e => refuse sys (e.message sys.libraries.fields)

/-! ### Listing -/

/-- The log lines that are printed when nothing is said about logging: the messages of warnings and
errors. -/
def plainLog (lines : List LogLine) : String :=
  String.join ((lines.filter (LogLine.atLeast .warning)).map fun l => l.message ++ "\n")

/-- Shows every candidate of the crate. -/
def list (sys : System σ) (parser : Parser) (start : Start) (directory : String) :
    Action σ Unit := do
  let crate ← openCrate sys start directory
  match crate.candidates parser (sys.workspace (← get)) with
  | .error e => throw (.escape (.listing e))
  | .ok (found, log) =>
    modify (sys.complain (plainLog log))
    if found.isEmpty then tell sys .info "No candidate mutations found"
    else
      put sys (Console.candidates sys.libraries.console found)
      tell sys .success s!"{found.length} candidate mutation(s)"

/-! ### Running -/

/-- The tools for a run. -/
def toolsFor (start : Start) (settings : Settings) : Tools where
  cargo := {
    program := chooseProgram none (start.environment.lookup Cargo.envName) Cargo.usual
    extraArgs := settings.cargoArgs
    rustflags := settings.rustflags }
  git := ⟨chooseProgram none (start.environment.lookup Git.envName) Git.usual⟩

/-- The system as the host of a campaign that logs from a level on. -/
def hostFor (sys : System σ) (tools : Tools) (crate : Crate) (settings : Settings)
    (level : LogLevel) : Campaign.Host σ where
  survey := fun s => (sys.workspace s, s)
  write := sys.write
  call := Campaign.callTools tools crate.root.toText (sys.execute settings.pollInterval.val)
  log line := fun s => if line.atLeast level then sys.complain (line.toText ++ "\n") s else s
  display := some (display sys)

/-- Whether the program reports a failure of the campaign itself. -/
def isReported : Campaign.Failure → Bool
  | .cancelled => true
  | .terminate _ => true
  | .unfinished => false
  | .sample (.noFiles _) => true
  | .sample (.noCandidates _) => true
  | .sample _ => false
  | .region _ => true
  | .restore _ => true
  | .display _ => false

/-- Reports how a campaign ended. -/
def conclude (sys : System σ) (stats : Stats) : Except Campaign.Failure Bool → Action σ Unit
  | .ok true => put sys (Console.stats sys.libraries.console stats)
  | .ok false => throw .unfinished
  | .error .cancelled => do
    tell sys .warning "Interrupted; the working tree may hold uncommitted edits"
    put sys (Console.stats sys.libraries.console stats)
    throw (.exit interruptedStatus)
  | .error failure => do
    if !isReported failure then throw (.escape (.campaign failure))
    tell sys .error failure.message
    put sys (Console.stats sys.libraries.console stats)
    throw (.exit 1)

/-- Runs a campaign, of `rounds` iterations at most if the settings have no limit. -/
def run {ρ : Type} (sys : System σ) (parser : Parser) (source : RandomSource ρ)
    (seeded : Int → ρ) (rounds : Nat) (start : Start) (r : CommandLine.RunRequest) :
    Action σ Unit := do
  let crate ← openCrate sys start r.directory
  let settings ← settingsFor sys crate r
  tell sys .info s!"Mutating {crate.root.toText}"
  let seed ← match settings.seed with
    | some seed => pure seed
    | none => modifyGet sys.freshSeed
  let host := hostFor sys (toolsFor start settings) crate settings
    (if r.verbose then .debug else .warning)
  let rounds := (settings.maxIterations.map (·.val)).getD rounds
  let (result, after) := (Campaign.run ⟨crate, settings, parser, source, host⟩ rounds).run.run
    { random := seeded seed, host := ← get }
  set after.host
  conclude sys after.stats result

/-! ### The whole program -/

/-- Does what the words of the command line ask for. -/
def perform {ρ : Type} (sys : System σ) (parser : Parser) (source : RandomSource ρ)
    (seeded : Int → ρ) (rounds : Nat) (start : Start) : Action σ Unit := do
  match CommandLine.read start.words with
  | .error e =>
    modify (sys.complain e.message)
    throw (.exit 2)
  | .ok (.help page) => modify (sys.print page.help)
  | .ok .version => modify (sys.print CommandLine.versionText)
  | .ok (.list directory) => list sys parser start directory
  | .ok (.run r) => run sys parser source seeded rounds start r

/-- How the program ends, and the system afterwards. -/
def outcome {ρ : Type} (sys : System σ) (parser : Parser) (source : RandomSource ρ)
    (seeded : Int → ρ) (rounds : Nat) (start : Start) (s : σ) : Ending × σ :=
  match (perform sys parser source seeded rounds start).run.run s with
  | (.ok (), s) => (.exit 0, s)
  | (.error ending, s) => (ending, s)

end Tighten.Program
