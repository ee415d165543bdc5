import Tighten.CommandLine.Options
import Tighten.Text.Quoted
import Tighten.Text.Whole

/-
The command line: what is asked for, or why it cannot be made out.

The program has two commands.  A request for help or for the version is answered before any value is
looked at, but only if the words could be read at all.  Values are looked at in the order in which
their options were first used.
-/
namespace Tighten.CommandLine

/-! ### Pages -/

/-- The commands, and the program as a whole. -/
inductive Page where
  | main
  | run
  | list
deriving DecidableEq, Repr

namespace Page

/-- The command's name. -/
def name : Page → String
  | .main => "main"
  | .run => "main run"
  | .list => "main list"

/-- What may follow the name. -/
def shape : Page → String
  | .main => "[OPTIONS] COMMAND [ARGS]..."
  | .run => "[OPTIONS] [CARGO_ARGS]..."
  | .list => "[OPTIONS]"

/-- How the command is used. -/
def usage (p : Page) : String :=
  s!"Usage: {p.name} {p.shape}\n"

/-- What the command does and which options it has. -/
def help (p : Page) : String :=
  p.usage ++ "\n" ++ match p with
  | .main =>
    "  retypist - narrow Rust visibility, keeping only what still builds and passes.\n" ++
    "\n" ++
    "Options:\n" ++
    "  --version  Show the version and exit.\n" ++
    "  --help     Show this message and exit.\n" ++
    "\n" ++
    "Commands:\n" ++
    "  list  Show every candidate mutation in the crate.\n" ++
    "  run   Repeatedly narrow visibility, committing batches that pass `cargo...\n"
  | .run =>
    "  Repeatedly narrow visibility, committing batches that pass `cargo test`.\n" ++
    "\n" ++
    "  Extra CARGO_ARGS are appended to `cargo test`.\n" ++
    "\n" ++
    "Options:\n" ++
    "  -d, --dir TEXT            Rust crate directory to mutate.\n" ++
    "  --seed INTEGER            Seed for reproducible sampling.\n" ++
    "  --max-iterations INTEGER  Stop after N iterations.\n" ++
    "  --min-batch INTEGER       Smallest batch size.\n" ++
    "  --max-batch INTEGER       Largest batch size.\n" ++
    "  --no-format               Skip cargo fmt before committing.\n" ++
    "  -v, --verbose             Enable debug logging.\n" ++
    "  --help                    Show this message and exit.\n"
  | .list =>
    "  Show every candidate mutation in the crate.\n" ++
    "\n" ++
    "Options:\n" ++
    "  -d, --dir TEXT  Rust crate directory to examine.\n" ++
    "  --help          Show this message and exit.\n"

end Page

/-- The version of the program, as it is announced. -/
def versionText : String := "retypist, version 0.1.0\n"

/-! ### Errors -/

/-- Why a request cannot be made out. -/
inductive UsageError where
  /-- Nothing is asked for. -/
  | nothing
  | option (page : Page) (error : OptionError)
  | missingCommand
  | unknownCommand (name : String) (close : List String)
  | extraArguments (page : Page) (arguments : List String)
  | notWhole (page : Page) (option value : String)
deriving DecidableEq, Repr

/-- The question whether another word was meant, if there are any. -/
def suggestion (close : List String) : String :=
  match close.mergeSort (fun a b => !decide (b < a)) with
  | [] => ""
  | [word] => s!" Did you mean {Text.quote word}?"
  | words => " (Did you mean one of: " ++ ", ".intercalate (words.map Text.quote) ++ "?)"

/-- The complaint about a page's words, below a reminder of how the command is used. -/
def complaint (page : Page) (text : String) : String :=
  page.usage ++ s!"Try '{page.name} --help' for help.\n\nError: {text}\n"

/-- What is printed about a request that cannot be made out.  Complaints about the value of an option
do not come with a reminder. -/
def UsageError.message : UsageError → String
  | .nothing => Page.main.help
  | .option page (.unknown name close) =>
    complaint page s!"No such option {Text.quote name}.{suggestion close}"
  | .option _ (.missingValue name) => s!"Error: Option {Text.quote name} requires an argument.\n"
  | .option _ (.unwantedValue name) =>
    s!"Error: Option {Text.quote name} does not take a value.\n"
  | .missingCommand => complaint .main "Missing command."
  | .unknownCommand name close =>
    complaint .main s!"No such command {Text.quote name}.{suggestion close}"
  | .extraArguments page arguments =>
    let plural := if arguments.length = 1 then "" else "s"
    let listed := " ".intercalate arguments
    complaint page s!"Got unexpected extra argument{plural} ({listed})"
  | .notWhole page name value =>
    complaint page s!"Invalid value for '{name}': {Text.quote value} is not a valid integer."

/-! ### Requests -/

/-- What a run is asked to do differently from the settings. -/
structure RunRequest where
  directory : String := "."
  seed : Option Int := none
  maxIterations : Option Int := none
  minBatch : Option Int := none
  maxBatch : Option Int := none
  noFormat : Bool := false
  verbose : Bool := false
  cargoArgs : List String := []
deriving DecidableEq, Repr

/-- What the program is asked for. -/
inductive Request where
  | help (page : Page)
  | version
  | list (directory : String)
  | run (request : RunRequest)
deriving DecidableEq, Repr

/-- How the words before the command are read. -/
def mainGrammar : Grammar where
  flags := [{ long := "--version" }, { long := "--help" }]
  interspersed := false

/-- How the words of `list` are read. -/
def listGrammar : Grammar where
  flags := [{ long := "--dir", short := some 'd', takesValue := true }, { long := "--help" }]

/-- The options of `run` that take a whole number. -/
def wholeOptions : List String := ["--seed", "--max-iterations", "--min-batch", "--max-batch"]

/-- How the words of `run` are read. -/
def runGrammar : Grammar where
  flags := { long := "--dir", short := some 'd', takesValue := true } ::
    wholeOptions.map (fun name => { long := name, takesValue := true }) ++
    [{ long := "--no-format" }, { long := "--verbose", short := some 'v' }, { long := "--help" }]
  passesUnknown := true

/-- The directory that is asked for. -/
def Words.directory (w : Words) : String := (w.value? "--dir").getD "."

/-- The value of an option as a whole number, if the option is used. -/
def Words.whole (w : Words) (page : Page) (option : String) : Except UsageError (Option Int) :=
  match w.value? option with
  | none => .ok none
  | some value =>
    match Text.whole? value with
    | some n => .ok (some n)
    | none => .error (.notWhole page option value)

/-- Complains about the first option used whose value is not a whole number. -/
def Words.checkWholes (w : Words) (page : Page) : Except UsageError Unit :=
  (w.uses.filter fun u => wholeOptions.contains u.flag.long).forM fun u =>
    discard (w.whole page u.flag.long)

/-- The request in the words after `list`. -/
def readList (words : List String) : Except UsageError Request := do
  let w ← (listGrammar.read words).mapError (.option .list)
  if w.has "--help" then return .help .list
  if w.arguments.isEmpty then return .list w.directory
  throw (.extraArguments .list w.arguments)

/-- The request in the words after `run`. -/
def readRun (words : List String) : Except UsageError Request := do
  let w ← (runGrammar.read words).mapError (.option .run)
  if w.has "--help" then return .help .run
  w.checkWholes .run
  return .run {
    directory := w.directory
    seed := ← w.whole .run "--seed"
    maxIterations := ← w.whole .run "--max-iterations"
    minBatch := ← w.whole .run "--min-batch"
    maxBatch := ← w.whole .run "--max-batch"
    noFormat := w.has "--no-format"
    verbose := w.has "--verbose"
    cargoArgs := w.arguments }

/-- The request for help or the version in words that were read, if there is one. -/
def eager (w : Words) : Option Request :=
  match w.first? ["--version", "--help"] with
  | some "--version" => some .version
  | some _ => some (.help .main)
  | none => none

/-- The names of the commands. -/
def commandNames : List String := ["list", "run"]

/-- The request in the words from the name of the command on.  A name that looks like an option, and
is not a command, is read once more as one. -/
def readCommand (name : String) (words : List String) : Except UsageError Request :=
  match name with
  | "list" => readList words
  | "run" => readRun words
  | _ => do
    if Grammar.isOption name then
      let w ← (mainGrammar.read (name :: words)).mapError (.option .main)
      if let some request := eager w then return request
    throw (.unknownCommand name (Text.closeWords name commandNames))

/-- What the words of a command line ask for. -/
def read (words : List String) : Except UsageError Request := do
  if words.isEmpty then throw .nothing
  let w ← (mainGrammar.read words).mapError (.option .main)
  if let some request := eager w then return request
  match w.arguments with
  | [] => throw .missingCommand
  | name :: rest => readCommand name rest

end Tighten.CommandLine
