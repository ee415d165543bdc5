import Tighten.Shell.Script
import Tighten.Text.Utf8
import Tighten.Workspace

/-
A small shell, with the few programs that scripts for it use.

Running a script takes time only where it sleeps, and what it prints carries the moment at which it
was printed.  Whoever stops the script at some moment can so tell what it had printed by then.
-/
namespace Tighten.Shell

/-! ### The state of a shell -/

/-- Where printed text goes. -/
inductive Target where
  | shown
  | dropped
  /-- Into the pipe. -/
  | piped
  | file (path : Path)
deriving DecidableEq, Repr

/-- Where a command's two streams go. -/
structure Streams where
  out : Target := .shown
  err : Target := .shown
deriving DecidableEq, Repr

/-- A shell at work. -/
structure State where
  workspace : Workspace
  directory : Path
  environment : List (String × String) := []
  /-- The words after the script on its command line. -/
  arguments : List String := []
  /-- The milliseconds since the start. -/
  clock : Nat := 0
  /-- What was printed, and when. -/
  printed : List (Nat × String) := []
  pipe : String := ""
  /-- What is left to be read. -/
  input : List Char := []
  status : Int := 0
  /-- When the scripts put aside end. -/
  jobs : List Nat := []
  /-- The status that the shell has ended with; negative after a signal. -/
  ended : Option Int := none

/-- The process number of the shell. -/
def shellPid : Nat := 4242

/-- The directories with programs in them. -/
def programDirectories : List String := ["/bin", "/usr/bin", "/usr/local/bin"]

namespace State

/-- Prints to a target. -/
def emit (s : State) (target : Target) (text : String) : State :=
  match target with
  | .shown => { s with printed := s.printed ++ [(s.clock, text)] }
  | .dropped => s
  | .piped => { s with pipe := s.pipe ++ text }
  | .file path =>
    let old := (s.workspace.read path).toOption.getD []
    match s.workspace.write path (old ++ Text.Utf8.encode text.toList) with
    | .ok workspace => { s with workspace }
    | .error _ => s

/-- The shell after a command with this status. -/
def done (s : State) (status : Int) : State := { s with status }

/-- The value of a parameter. -/
def parameter? (s : State) (name : String) : Option String :=
  if name = "$" then some (toString shellPid)
  else if name = "?" then some (toString s.status)
  else if name = "#" then some (toString (s.arguments.length - 1))
  else if name = "@" then some (" ".intercalate (s.arguments.drop 1))
  else
    match name.toNat? with
    | some i => s.arguments[i]?
    | none => s.environment.lookup name

/-- The path that a text names, seen from the shell's directory. -/
def pathOf (s : State) (text : String) : Path := s.directory.join (Path.ofText text)

/-- Whether programs can be found along the search path. -/
def findsPrograms (s : State) : Bool :=
  match s.environment.lookup "PATH" with
  | some path => (path.splitOn ":").any programDirectories.contains
  | none => true

end State

/-! ### Words -/

/-- The fields of a word that are read so far: those that are complete, and one that is open. -/
structure Fields where
  complete : List String := []
  current : Option String := none

/-- Adds text that is not divided. -/
def Fields.extend (f : Fields) (text : List Char) : Fields :=
  { f with current := some (f.current.getD "" ++ String.ofList text) }

/-- Adds text that is divided at its blanks. -/
def Fields.extendDivided (f : Fields) (text : List Char) : Fields :=
  text.foldl (fun f c =>
    if Text.isBlank c then
      match f.current with
      | some w => ⟨f.complete ++ [w], none⟩
      | none => f
    else f.extend [c]) f

/-- Adds a piece of a word. -/
def Fields.add (s : State) (f : Fields) : Piece → Fields
  | .text chars _ => f.extend chars
  | .parameter name otherwise quoted =>
    let value := match s.parameter? name with
      | some v => if v = "" then otherwise else v.toList
      | none => otherwise
    if quoted then f.extend value else f.extendDivided value

/-- The fields that a word stands for. -/
def expand (s : State) (w : Word) : List String :=
  let f := w.foldl (Fields.add s) {}
  f.complete ++ f.current.toList

/-- The text that a word stands for as a whole. -/
def expandWhole (s : State) (w : Word) : String :=
  " ".intercalate (expand s w)

/-! ### Programs -/

/-- The text with backslashes replaced by what they stand for. -/
def unescape : List Char → List Char
  | '\\' :: 'n' :: rest => '\n' :: unescape rest
  | '\\' :: 't' :: rest => '\t' :: unescape rest
  | '\\' :: '\\' :: rest => '\\' :: unescape rest
  | c :: rest => c :: unescape rest
  | [] => []

/-- A format with its directives replaced by arguments, and the arguments left over. -/
def fillFormat : List Char → List String → List Char × List String
  | '%' :: '%' :: rest, args =>
    let (text, args) := fillFormat rest args
    ('%' :: text, args)
  | '%' :: c :: rest, args =>
    if c = 's' ∨ c = 'd' ∨ c = 'b' then
      let (text, left) := fillFormat rest (args.drop 1)
      ((args.headD "").toList ++ text, left)
    else
      let (text, left) := fillFormat rest args
      ('%' :: c :: text, left)
  | c :: rest, args =>
    let (text, args) := fillFormat rest args
    (c :: text, args)
  | [], args => ([], args)

/-- Prints arguments under a format, again and again while arguments are left. -/
def format (template : List Char) : (fuel : Nat) → List String → List Char
  | 0, _ => []
  | fuel + 1, args =>
    let (text, left) := fillFormat template args
    if left.isEmpty ∨ left.length = args.length then text else text ++ format template fuel left

/-- The milliseconds that a decimal number of seconds is. -/
def milliseconds (text : String) : Nat :=
  let whole := text.toList.takeWhile Char.isDigit
  let fraction := ((text.toList.drop (whole.length + 1)).takeWhile Char.isDigit).take 3
  let value (ds : List Char) : Nat := ds.foldl (fun n c => n * 10 + (c.toNat - 48)) 0
  value whole * 1000 + value fraction * Nat.pow 10 (3 - fraction.length)

/-- The signals by name. -/
def signals : List (String × Nat) :=
  [("HUP", 1), ("INT", 2), ("QUIT", 3), ("KILL", 9), ("USR1", 10), ("USR2", 12), ("PIPE", 13),
    ("ALRM", 14), ("TERM", 15)]

/-- The signal that a word names. -/
def signal? (word : String) : Option Nat :=
  match word.toNat? with
  | some n => some n
  | none =>
    let bare := if word.startsWith "SIG" then (word.drop 3).toString else word
    signals.lookup bare

/-- What a condition says of its words. -/
def holds (s : State) : List String → Bool
  | ["-f", p] => s.workspace.isFile (s.pathOf p)
  | ["-e", p] => s.workspace.exists? (s.pathOf p)
  | ["-d", p] => s.workspace.exists? (s.pathOf p) && !s.workspace.isFile (s.pathOf p)
  | ["-n", t] => t != ""
  | ["-z", t] => t == ""
  | [t] => t != ""
  | ["!", a] => a == ""
  | [a, "=", b] => a == b
  | [a, "!=", b] => a != b
  | [a, "-eq", b] => a.toInt? == b.toInt?
  | [a, "-ne", b] => a.toInt? != b.toInt?
  | "!" :: rest => !holds s rest
  | _ => false

/-- The next line of the input, and the rest, if there is any input. -/
def nextLine (input : List Char) : Option (List Char × List Char) :=
  if input.isEmpty then none
  else
    let line := input.takeWhile (· ≠ '\n')
    some (line, input.drop (line.length + 1))

/-- The bytes of a file as text. -/
def textOf (bytes : List UInt8) : String :=
  String.ofList (Text.Utf8.decodeLossy bytes)

/-- Copies files to the output. -/
def concatenate (io : Streams) (s : State) : List String → State
  | [] => s
  | name :: rest =>
    match s.workspace.read (s.pathOf name) with
    | .ok bytes => concatenate io (s.emit io.out (textOf bytes)) rest
    | .error e =>
      let s := s.emit io.err s!"cat: {name}: {e.errno.message}\n"
      (concatenate io s rest).done 1

/-- The names in a directory, in order, without those that begin with a point. -/
def namesIn (w : Workspace) (place : List String) : List String :=
  let below := w.entries.filterMap fun (n, _) =>
    if n.length = place.length + 1 ∧ place.isPrefixOf n then n.getLast? else none
  (below.filter fun n => n.toList.head? != some '.').mergeSort fun a b => !decide (b < a)

/-- Lists a directory or names a file. -/
def listNames (io : Streams) (s : State) (name : String) : State :=
  let path := s.pathOf name
  if s.workspace.isFile path then (s.emit io.out (name ++ "\n")).done 0
  else
    match s.workspace.exists? path, s.workspace.locate path with
    | true, .ok place =>
      let lines := (namesIn s.workspace place).map (· ++ "\n")
      (s.emit io.out (String.join lines)).done 0
    | _, _ =>
      (s.emit io.err s!"ls: cannot access '{name}': No such file or directory\n").done 2

/-- Sends a signal. -/
def send (s : State) (signal : Nat) (pids : List String) : State :=
  if signal ≠ 0 ∧ pids.contains (toString shellPid) then { s with ended := some (-(signal : Int)) }
  else s.done 0

/-- Runs a program by its name, if there is one with this name.  Those that a shell has itself are
marked by `builtin`. -/
def program (builtin : Bool) (io : Streams) (s : State) (name : String) (args : List String) :
    Option State :=
  let newline (text : List Char) := String.ofList (text ++ ['\n'])
  match name, args with
  | ":", _ => some (s.done 0)
  | "true", _ => some (s.done 0)
  | "false", _ => some (s.done 1)
  | "echo", "-n" :: args =>
    some ((s.emit io.out (" ".intercalate args)).done 0)
  | "echo", args =>
    let text := (" ".intercalate args).toList
    some ((s.emit io.out (newline (if builtin then unescape text else text))).done 0)
  | "printf", template :: args =>
    let text := format (unescape template.toList) (args.length + 1) args
    some ((s.emit io.out (String.ofList text)).done 0)
  | "pwd", _ => some ((s.emit io.out (s.directory.toText ++ "\n")).done 0)
  | "test", args => some (s.done (if holds s args then 0 else 1))
  | "[", args => some (s.done (if holds s args.dropLast then 0 else 1))
  | "kill", "-s" :: name :: pids => some (send s ((signal? name).getD 15) pids)
  | "kill", first :: pids =>
    if first.startsWith "-" then some (send s ((signal? (first.drop 1).toString).getD 15) pids)
    else some (send s 15 (first :: pids))
  | "cat", [] =>
    some ({ s with input := [] }.emit io.out (String.ofList s.input) |>.done 0)
  | "cat", names => some (concatenate io (s.done 0) names)
  | "ls", [] => some (listNames io s ".")
  | "ls", name :: _ => some (listNames io s name)
  | "sleep", args =>
    some ({ s with clock := s.clock + (args.map milliseconds).foldr (· + ·) 0 }.done 0)
  | _, _ => none

/-- The commands that the shell does itself, without looking for a program. -/
def builtins : List String :=
  [":", "true", "false", "echo", "printf", "pwd", "test", "[", "kill"]

/-! ### Running -/

/-- Sends streams where redirections say; an input is taken at once. -/
def redirect (s : State) (io : Streams) (r : Redirect) : State × Streams :=
  let name := expandWhole s r.target
  let target := if name = "/dev/null" then Target.dropped else .file (s.pathOf name)
  let send (t : Target) : Streams := if r.stream = 2 then { io with err := t } else { io with out := t }
  match r.direction with
  | .input =>
    let bytes := (s.workspace.read (s.pathOf name)).toOption.getD []
    ({ s with input := (textOf bytes).toList }, io)
  | .append => (s, send target)
  | .output =>
    match target with
    | .file path =>
      match s.workspace.write path [] with
      | .ok workspace => ({ s with workspace }, send target)
      | .error _ => (s, send target)
    | _ => (s, send target)
  | .same => (s, send (if name = "2" then io.err else io.out))

/-- Runs a command given by its fields. -/
def runFields (io : Streams) (s : State) : List String → State
  | [] => s.done 0
  | "exit" :: args =>
    let status := ((args.head?.bind String.toInt?).getD s.status) % 256
    { s with ended := some status, status }
  | "read" :: names =>
    match nextLine s.input with
    | some (line, input) =>
      let environment := (names.headD "REPLY", String.ofList line) :: s.environment
      { s with input, environment, status := 0 }
    | none => s.done 1
  | ["cd", name] =>
    let path := (s.pathOf name).resolved
    if s.workspace.exists? path && !s.workspace.isFile path then
      { s with directory := path, status := 0 }
    else (s.emit io.err s!"sh: 1: cd: can't cd to {name}\n").done 2
  | "wait" :: _ => { s with clock := s.jobs.foldl max s.clock, jobs := [], status := 0 }
  | "exec" :: name :: args =>
    match program false io s name args with
    | some s => { s with ended := some s.status }
    | none => { s.emit io.err s!"sh: 1: exec: {name}: not found\n" with ended := some 127 }
  | name :: args =>
    match String.splitOn name "=" with
    | [key, value] => { s with environment := (key, value) :: s.environment, status := 0 }
    | _ =>
      let found := if builtins.contains name then program true io s name args
        else if s.findsPrograms then program false io s name args
        else none
      found.getD ((s.emit io.err s!"sh: 1: {name}: not found\n").done 127)

/-- Runs a script, unless the shell has ended. -/
def run (io : Streams) (s : State) : Script → State
  | .skip => s
  | .simple words redirects =>
    if s.ended.isSome then s
    else
      let (s, io) := redirects.foldl (fun (s, io) r => redirect s io r) (s, io)
      runFields io s (words.flatMap (expand s))
  | .andThen a b =>
    let s := run io s a
    if s.ended.isNone ∧ s.status = 0 then run io s b else s
  | .orElse a b =>
    let s := run io s a
    if s.ended.isNone ∧ s.status ≠ 0 then run io s b else s
  | .chain a b =>
    let s := run io s a
    if s.ended.isNone then run io s b else s
  | .pipe a b =>
    let first := run { io with out := .piped } { s with pipe := "" } a
    let second := run io { first with input := first.pipe.toList, pipe := s.pipe, ended := none } b
    let died := second.ended.bind fun n => if n < 0 then some n else none
    { second with ended := died, status := second.ended.getD second.status }
  | .invert a =>
    let s := run io s a
    s.done (if s.status = 0 then 1 else 0)
  | .apart a =>
    let inner := run io s a
    let died := inner.ended.bind fun n => if n < 0 then some n else none
    { inner with
      environment := s.environment, directory := s.directory, ended := died,
      status := inner.ended.getD inner.status }
  | .aside a =>
    let job := run io { s with input := [] } a
    { s with
      workspace := job.workspace, printed := job.printed, jobs := job.clock :: s.jobs, status := 0 }
  | .choose c yes no =>
    let s := run io s c
    if s.ended.isSome then s
    else if s.status = 0 then run io s yes
    else run io (s.done 0) no

/-- The programs that are this shell. -/
def shellNames : List String := ["sh", "dash"]

/-- The name of a program without the directory it is in, where that has programs. -/
def programName (argv0 : String) : String :=
  match (programDirectories.filter fun d => argv0.startsWith (d ++ "/")).head? with
  | some d => (argv0.drop (d.length + 1)).toString
  | none => argv0

/-- Runs a command line from its start to its end, if the program is known. -/
def runCommand (s : State) (argv : List String) : Option State :=
  match argv with
  | [] => none
  | argv0 :: args =>
    let name := programName argv0
    if shellNames.contains name then
      match args with
      | "-c" :: text :: rest =>
        let arguments := if rest.isEmpty then [name] else rest
        some (run {} { s with arguments } (Script.ofText text))
      | file :: rest =>
        match s.workspace.read (s.pathOf file) with
        | .ok bytes => some (run {} { s with arguments := file :: rest } (Script.ofText (textOf bytes)))
        | .error _ =>
          some ((s.emit .shown s!"{name}: 0: cannot open {file}: No such file\n").done 2)
      | [] => some (s.done 0)
    else program false {} s name args

/-- The status that a shell ends with. -/
def State.exitStatus (s : State) : Int := s.ended.getD s.status

end Tighten.Shell
