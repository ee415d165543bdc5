import Tighten.Json.Reader
import Tighten.Json.Writer
import Tighten.Settings
import Tighten.Text.Lines
import Tighten.Text.Utf8
import Tighten.Workspace

/-
The file with a crate's settings.

A crate without the file has the default settings.  A file that is there must be a text that is a
JSON object of settings.  Saving writes every setting, and the text saved is ASCII.

How deep a document may nest is up to the machine that reads it, but there is always room for
settings, which are a list inside an object at most.
-/
namespace Tighten.Settings

/-- The name of the file, in the root of the crate. -/
def fileName : String := "retypist.json"

/-- Where the file is in a crate. -/
def filePath (root : Path) : Path :=
  root.join (Path.ofNames [fileName])

/-- What is wrong with the text of the file. -/
inductive Fault where
  | malformed (error : Json.ReadError)
  /-- The document is some other value than an object. -/
  | notObject (kind : String)
  | invalid (errors : List FieldError)

/-- What is wrong, in words. -/
def Fault.message (rules : FieldRules) : Fault → String
  | .malformed e => e.message
  | .notObject kind =>
    s!"retypist.config.{modelName}() argument after ** must be a mapping, not {kind}"
  | .invalid errors => FieldError.report rules modelName errors

/-- Why settings could not be loaded. -/
inductive LoadError where
  /-- The file is there and its text is at fault. -/
  | file (path : Path) (fault : Fault)
  /-- The operating system does not give the file out. -/
  | os (error : OsError)
  /-- The bytes are not a text. -/
  | undecodable (error : Text.Utf8.DecodeError)
  /-- A whole number in the file has too many digits to be converted. -/
  | overlong (digits : Nat)
  /-- The document nests deeper than there is room for. -/
  | tooDeep (inside : Json.Bracketed)

/-- What went wrong, in words. -/
def LoadError.message (rules : FieldRules) : LoadError → String
  | .file path fault => s!"invalid {path.toText}: {fault.message rules}"
  | .os e => e.message
  | .undecodable e => e.message
  | .overlong digits => (Json.ReadError.tooLong digits).message
  | .tooDeep inside => (Json.ReadError.tooDeep inside).message

/-- Room for brackets inside each other, and at least for those of settings. -/
abbrev Nesting := { n : Nat // 2 ≤ n }

/-- The settings in a document. -/
def ofDocument : Json → Except Fault Settings
  | .obj members => (read members).mapError .invalid
  | value => .error (.notObject value.kindName)

/-- The settings in the bytes of a file. -/
def ofBytes (room : Nesting) (path : Path) (bytes : List UInt8) : Except LoadError Settings := do
  let text ← (Text.Utf8.decode bytes).mapError .undecodable
  match Json.parse room.val (String.ofList (Text.universalNewlines text)) with
  | .error (.tooLong digits) => .error (.overlong digits)
  | .error (.tooDeep inside) => .error (.tooDeep inside)
  | .error e => .error (.file path (.malformed e))
  | .ok value => (ofDocument value).mapError (.file path)

/-- The settings of the crate in a directory. -/
def load (room : Nesting) (w : Workspace) (root : Path) : Except LoadError Settings :=
  let path := filePath root
  if w.exists? path then
    match w.read path with
    | .error e => .error (.os e)
    | .ok bytes => ofBytes room path bytes
  else .ok default

/-- The text of the file for some settings. -/
def text (s : Settings) : String :=
  Json.render (.obj (Json.named s.members))

/-- Saves the settings of the crate in a directory. -/
def save {σ : Type} (write : Writer σ) (root : Path) (s : Settings) (state : σ) :
    Except OsError Unit × σ :=
  write (filePath root) (Text.Utf8.encode s.text.toList) state

end Tighten.Settings
