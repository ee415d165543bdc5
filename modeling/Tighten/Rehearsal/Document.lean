import Tighten.Json.Reader
import Tighten.Rehearsal.Session

/-
Sessions described by a JSON document.

The document is an object.  Its member `files` is an object that gives the text of each file under
its path, `script` gives for each task the list of what its calls come to, and `env` the variables of
the environment.  Every member may be absent.
-/
namespace Tighten.Rehearsal

/-- The members of an object that are named by texts; other values have none. -/
def membersOf : Json → List (String × Json)
  | .obj members => members.filterMap fun (name, v) => match name with
    | .text name => some (name, v)
    | .torn _ => none
  | _ => []

/-- The members of an object that are texts. -/
def textMembers (value : Json) : List (String × String) :=
  (membersOf value).filterMap fun (name, v) => match v with
    | .str s => some (name, s)
    | _ => none

/-- The member of a document, or nothing in its place. -/
def memberOf (document : Json) (name : String) : Json :=
  (document.get? name).getD .null

/-- What a word says that a call comes to. -/
def Cue.ofJson : Json → Cue
  | .str "failure" => .failure
  | .str "launch" => .launch
  | .str "cancel" => .cancel
  | _ => .success

/-- The cues in a list. -/
def cuesOf : Json → List Cue
  | .arr items => items.map Cue.ofJson
  | _ => []

/-- The script in an object. -/
def Script.ofJson (value : Json) : Script where
  test := cuesOf (memberOf value "test")
  format := cuesOf (memberOf value "fmt")
  reset := cuesOf (memberOf value "reset")
  discard := cuesOf (memberOf value "checkout")
  commit := cuesOf (memberOf value "commit")

/-- The directory that a session's files are in. -/
def root : Path := ⟨"/", ["crate"]⟩

/-- The workspace with files given by path and text. -/
def workspaceOf (files : List (String × String)) : Workspace :=
  files.foldl (fun w (path, text) =>
    w.add (Path.ofText path).names (.file (Text.Utf8.encode text.toList))) ⟨root, []⟩

/-- The session that a document describes. -/
def Session.ofJson (document : Json) : Session where
  stage := {
    workspace := workspaceOf (textMembers (memberOf document "files"))
    script := Script.ofJson (memberOf document "script") }

/-- How the program is started in the session that a document describes. -/
def startOf (document : Json) (words : List String) : Program.Start where
  words
  directory := root
  environment := textMembers (memberOf document "env")

end Tighten.Rehearsal
