import Tighten.Console.Markup

/-
The console of a rehearsal.

It knows a few of the emoji that a console knows, and of the ways to write a style those that are
made of words for a property and of one basic colour; any other name of a tag is told apart only up
to the case of its letters.  It can read all parameters.
-/
namespace Tighten.Rehearsal

open Console (EmojiCodes Rules)

/-! ### Emoji -/

/-- Some emoji that have a name. -/
def emoji? : String → Option Char
  | "100" => some '💯'
  | "1234" => some '🔢'
  | "b" => some '🅱'
  | _ => none

/-- The form wished for at the end of a name, as the character that asks for it, and the name
without the wish. -/
def emojiForm (name : List Char) : List Char × List Char :=
  let plain := "-text".toList
  let colourful := "-emoji".toList
  if plain.isSuffixOf name then (name.take (name.length - plain.length), ['\uFE0E'])
  else if colourful.isSuffixOf name then (name.take (name.length - colourful.length), ['\uFE0F'])
  else (name, [])

/-- The characters that a code with this name is shown as. -/
def emojiShown? : EmojiCodes := fun name =>
  let (name, form) := emojiForm name
  (emoji? ((String.ofList name).map Char.toLower)).map fun c => c :: form

/-! ### Styles -/

/-- The words for the properties of a text, in the order in which a style lists them, each with its
short forms. -/
def styleWords : List (String × List String) :=
  [("bold", ["b"]), ("dim", ["d"]), ("italic", ["i"]), ("underline", ["u"]), ("blink", []),
    ("blink2", []), ("reverse", ["r"]), ("conceal", ["c"]), ("strike", ["s"]),
    ("underline2", ["uu"]), ("frame", []), ("encircle", []), ("overline", ["o"])]

/-- The property that a word names. -/
def styleWord? (word : String) : Option String :=
  (styleWords.find? fun (name, short) => name == word || short.contains word).map (·.1)

/-- The basic colours. -/
def colourNames : List String :=
  ["default", "black", "red", "green", "yellow", "blue", "magenta", "cyan", "white",
    "bright_black", "bright_red", "bright_green", "bright_yellow", "bright_blue",
    "bright_magenta", "bright_cyan", "bright_white"]

/-- A style: some properties and at most one colour. -/
structure Style where
  properties : List String
  colour : Option String

/-- Adds what a word says to a style. -/
def Style.add? (style : Style) (word : String) : Option Style :=
  match styleWord? word with
  | some name => some { style with properties := name :: style.properties }
  | none => if colourNames.contains word then some { style with colour := some word } else none

/-- The style in its usual words and order. -/
def Style.toText (style : Style) : String :=
  let properties := (styleWords.map (·.1)).filter style.properties.contains
  " ".intercalate (properties ++ style.colour.toList)

/-- The words of a text. -/
def wordsOf (text : List Char) : List (List Char) :=
  (text.splitBy fun a b => !Text.isBlank a && !Text.isBlank b).filter fun w => !w.any Text.isBlank

/-- The name of a tag in normal form: the usual words of a style if it is one, else lower case. -/
def tagName (name : List Char) : String :=
  let words := (wordsOf name).map fun w => (String.ofList w).map Char.toLower
  match words.foldlM Style.add? (⟨[], none⟩ : Style) with
  | some style => if words.isEmpty then "none" else style.toText
  | none => (String.ofList (Text.trim name)).map Char.toLower

/-- The rules of the console. -/
def rules : Rules where
  emoji := emojiShown?
  normal := tagName
  unreadable? _ := none
  normal_style := by decide +kernel

end Tighten.Rehearsal
