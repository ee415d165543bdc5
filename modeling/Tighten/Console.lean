import Tighten.Candidate
import Tighten.Console.Markup
import Tighten.Console.Table
import Tighten.Stats

/-
What the user sees.

Everything printed goes through the console's markup, also the texts that the program did not write
itself, so what is printed depends on the rules of the console.  Printing is a text, or a text up to
the point where a line could not be printed.
-/
namespace Tighten.Console

variable (rules : Rules)

/-! ### Lines -/

/-- The columns between tab stops. -/
def tabWidth : Nat := 8

/-- A line with its tabs replaced by spaces, where it is at some column. -/
def expandTabs : (column : Nat) → List Char → List Char
  | _, [] => []
  | column, c :: rest =>
    if c = '\t' then
      let next := (column / tabWidth + 1) * tabWidth
      spaces (next - column) ++ expandTabs next rest
    else if c = '\n' then c :: expandTabs 0 rest
    else c :: expandTabs (column + Text.cells c) rest

/-- What marked-up text prints, and a newline. -/
def line (markup : String) : Except MarkupError String :=
  (plainText rules markup.toList).map fun text => String.ofList (expandTabs 0 text ++ ['\n'])

/-- The kinds of message. -/
inductive Tone where
  | success
  | error
  | warning
  | info
deriving DecidableEq, Repr

/-- The sign before a message, with its colour. -/
def Tone.sign : Tone → String
  | .success => "[green]✓[/green]"
  | .error => "[red]✗[/red]"
  | .warning => "[yellow]![/yellow]"
  | .info => "[blue]i[/blue]"

/-- A message. -/
def message (tone : Tone) (text : String) : Except MarkupError String :=
  line rules (tone.sign ++ " " ++ text)

/-! ### Batches and outcomes -/

/-- A print-out that may have stopped early. -/
structure Printout where
  text : String
  error : Option MarkupError
deriving DecidableEq, Repr

/-- Prints lines up to the first that cannot be printed. -/
def printLines : List String → Printout
  | [] => ⟨"", none⟩
  | markup :: rest =>
    match line rules markup with
    | .error e => ⟨"", some e⟩
    | .ok text =>
      let others := printLines rest
      ⟨text ++ others.text, others.error⟩

/-- The batch about to be tried, one candidate to a line. -/
def batch (iteration : Int) (candidates : List Candidate) : Printout :=
  printLines rules (s!"[bold]#{iteration}[/bold] trying {candidates.length} mutation(s)" ::
    candidates.map fun c => s!"  [dim]{c.describe}[/dim]")

/-- The colour and the word of an outcome. -/
def outcomeStyle : Outcome → String × String
  | .passed => ("green", "PASS")
  | .failed => ("yellow", "FAIL")
  | .error => ("red", "ERROR")

/-- What came of an iteration. -/
def status (iteration : Int) (outcome : Outcome) : Except MarkupError String :=
  let (colour, word) := outcomeStyle outcome
  line rules s!"[bold]#{iteration}[/bold] [{colour}]{word}[/{colour}]"

/-! ### Tables -/

/-- The candidates of a crate, one to a row. -/
def candidateRow (c : Candidate) : List String :=
  [c.file.relative.toText, c.span.start.toText, c.narrowing.name,
    Text.quote c.narrowing.replacement]

/-- A table of marked-up cells. -/
def table (title : String) (columns : List Column) (rows : List (List String)) :
    Except MarkupError String := do
  let rows ← rows.mapM fun row => row.mapM fun cell => plainText rules cell.toList
  return (Table.mk title.toList columns rows).toText

/-- A table of candidates. -/
def candidates (found : List Candidate) : Except MarkupError String :=
  table rules "Candidate Mutations"
    [⟨"File".toList, .left⟩, ⟨"Position".toList, .right⟩, ⟨"Operation".toList, .left⟩,
      ⟨"Replacement".toList, .left⟩]
    (found.map candidateRow)

/-- A table of the counters of a campaign. -/
def stats (s : Stats) : Except MarkupError String :=
  table rules "Campaign Summary" [⟨"Metric".toList, .left⟩, ⟨"Count".toList, .right⟩]
    [["Iterations", toString s.iterations], ["Passed", toString s.passed],
      ["Failed", toString s.failed], ["Errors", toString s.errors],
      ["Mutations committed", toString s.committed]]

end Tighten.Console
