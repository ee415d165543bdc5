import Tighten.Console.Emoji
import Tighten.Text.Blank

/-
Console markup.

Text for the console may hold tags: a bracket, one of the characters that can begin a tag, and
anything but another bracket up to the first closing bracket.  A tag names a style, which a console
without colours does not show, so a tag prints nothing; but a closing tag must match a tag that is
open, and names match in their normal form.  The parameters of a tag stand after an equals sign, and
those of a tag whose name begins with `@` are read when it is closed.  Backslashes before a tag
quote: each pair stands for one backslash, and one left over makes the tag an ordinary text.

The normal form of a name, the parameters that can be read, and the emoji with a name are `Rules` of
the console and given to whatever prints.

A message that comes from elsewhere is not safe from this: a path with brackets in it loses them, or
cannot be printed at all.
-/
namespace Tighten.Console

/-! ### Rules -/

/-- The styles that the program uses itself. -/
def styles : List String := ["green", "red", "yellow", "blue", "bold", "dim"]

/-- What is up to the console. -/
structure Rules where
  /-- What codes for emoji are shown as. -/
  emoji : EmojiCodes
  /-- The name of a tag in normal form, such as a style in its usual words. -/
  normal : List Char → String
  /-- What is wrong with the parameters of a tag, where they cannot be read. -/
  unreadable? : List Char → Option String
  /-- A plain style has its own word for a normal form. -/
  normal_style : ∀ style ∈ styles, normal style.toList = style

/-! ### Pieces -/

/-- A piece of marked-up text. -/
inductive Piece where
  /-- Text as it stands, in which a backslash before a bracket is still to be dropped. -/
  | text (chars : List Char)
  /-- Text that was quoted. -/
  | literal (chars : List Char)
  /-- A tag, without its brackets, and where it stands. -/
  | tag (body : List Char) (position : Nat)
deriving DecidableEq, Repr

/-- Whether a character can follow the bracket that begins a tag. -/
def beginsTag (c : Char) : Bool :=
  ('a' ≤ c && c ≤ 'z') || c = '#' || c = '/' || c = '@'

/-- The body of the tag at the start of a text. -/
def tagAt? : List Char → Option (List Char)
  | '[' :: c :: rest =>
    let body := (c :: rest).takeWhile (· ≠ ']')
    if beginsTag c && body.length < (c :: rest).length && !body.contains '[' then some body
    else none
  | _ => none

/-- The backslashes and the body of the tag after them at the start of a text. -/
def quotedTagAt? (text : List Char) : Option (Nat × List Char) :=
  let quotes := (text.takeWhile (· = '\\')).length
  (tagAt? (text.drop quotes)).map fun body => (quotes, body)

/-- The pieces with one more character before them. -/
def addChar (c : Char) : List Piece → List Piece
  | .text chars :: rest => .text (c :: chars) :: rest
  | pieces => .text [c] :: pieces

/-- The pieces that a tag and the backslashes before it are read as. -/
def tagPieces (quotes : Nat) (body : List Char) (position : Nat) : List Piece :=
  let backslashes := if 2 ≤ quotes then [.literal (List.replicate (quotes / 2) '\\')] else []
  if quotes % 2 = 1 then backslashes ++ [.literal ('[' :: body ++ [']'])]
  else backslashes ++ [.tag body (position + quotes)]

/-- The pieces of a text that begins at `position`, after `skip` characters that are already dealt
with. -/
def pieces : (skip position : Nat) → List Char → List Piece
  | _, _, [] => []
  | skip + 1, position, _ :: rest => pieces skip (position + 1) rest
  | 0, position, c :: rest =>
    match quotedTagAt? (c :: rest) with
    | some (quotes, body) =>
      tagPieces quotes body position ++ pieces (quotes + body.length + 1) (position + 1) rest
    | none => addChar c (pieces 0 (position + 1) rest)

/-! ### Printing -/

/-- A closing tag that closes nothing, or a tag that cannot be closed. -/
inductive MarkupError where
  | unmatched (tag : String) (position : Nat)
  | nothingOpen (position : Nat)
  /-- The parameters of the tag to be closed cannot be read. -/
  | unreadable (complaint : String)
deriving DecidableEq, Repr

/-- Which tag is at fault. -/
def MarkupError.message : MarkupError → String
  | .unmatched tag position =>
    s!"closing tag '[{tag}]' at position {position} doesn't match any open tag"
  | .nothingOpen position => s!"closing tag '[/]' at position {position} has nothing to close"
  | .unreadable complaint => complaint

/-- A tag that is open: its name in normal form and its parameters, which may be missing. -/
structure OpenTag where
  name : String
  parameters : List Char
deriving DecidableEq, Repr

/-- What keeps a tag from being closed. -/
def OpenTag.complaint? (rules : Rules) (tag : OpenTag) : Option String :=
  if tag.name.toList.head? = some '@' ∧ tag.parameters ≠ [] then rules.unreadable? tag.parameters
  else none

/-- Closes a tag, after which the others are open. -/
def OpenTag.close (rules : Rules) (tag : OpenTag) (others : List OpenTag) :
    Except MarkupError (List OpenTag) :=
  match tag.complaint? rules with
  | some complaint => .error (.unreadable complaint)
  | none => .ok others

/-- The text without each backslash that stands before a bracket. -/
def dropQuotes : List Char → List Char
  | '\\' :: '[' :: rest => '[' :: dropQuotes rest
  | c :: rest => c :: dropQuotes rest
  | [] => []

/-- Whether a character rings, moves back or feeds, and so is never printed. -/
def isStripped (c : Char) : Bool :=
  c.toNat ∈ [7, 8, 11, 12, 13]

/-- A piece of text as it is printed. -/
def printed (codes : EmojiCodes) (chars : List Char) : List Char :=
  (replaceEmoji codes 0 (dropQuotes chars)).filter fun c => !isStripped c

/-- The open tags after a tag, the last opened first. -/
def openTags (rules : Rules) (body : List Char) (position : Nat) (opened : List OpenTag) :
    Except MarkupError (List OpenTag) :=
  match body.takeWhile (· ≠ '=') with
  | '/' :: rest =>
    if (Text.trim rest).isEmpty then
      match opened with
      | [] => .error (.nothingOpen position)
      | tag :: others => tag.close rules others
    else
      let name := rules.normal (Text.trim rest)
      match opened.find? (·.name = name) with
      | none => .error (.unmatched (String.ofList body) position)
      | some tag => tag.close rules (opened.eraseP (·.name = name))
  | name => .ok (⟨rules.normal name, body.drop (name.length + 1)⟩ :: opened)

/-- What the pieces print, with the given tags open. -/
def printPieces (rules : Rules) :
    (opened : List OpenTag) → List Piece → Except MarkupError (List Char)
  | _, [] => .ok []
  | opened, .text chars :: rest =>
    (printPieces rules opened rest).map (printed rules.emoji chars ++ ·)
  | opened, .literal chars :: rest =>
    (printPieces rules opened rest).map (printed rules.emoji chars ++ ·)
  | opened, .tag body position :: rest =>
    match openTags rules body position opened with
    | .error e => .error e
    | .ok opened => printPieces rules opened rest

/-- The text that marked-up text prints. -/
def plainText (rules : Rules) (markup : List Char) : Except MarkupError (List Char) :=
  printPieces rules [] (pieces 0 0 markup)

end Tighten.Console
