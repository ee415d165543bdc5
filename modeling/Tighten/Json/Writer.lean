import Tighten.Json
import Tighten.Number.Shortest
import Tighten.Text.Quoted

/-
Writing JSON.

A document is written one item or member to a line, each level two columns further in.  Only
printable ASCII characters stand for themselves: any other is written by the numbers of its UTF-16
units, so the text means the same in every encoding that extends ASCII.  Half of a surrogate pair is
written by its own number.
-/
namespace Tighten.Json

/-- The UTF-16 units of a character. -/
def units (c : Char) : List Nat :=
  let n := c.toNat
  if n < 0x10000 then [n]
  else [0xD800 + (n - 0x10000) / 0x400, 0xDC00 + (n - 0x10000) % 0x400]

/-- The letter of the characters that have one after a backslash. -/
def escapeLetter? : Char → Option Char
  | '"' => some '"'
  | '\\' => some '\\'
  | '\n' => some 'n'
  | '\r' => some 'r'
  | '\t' => some 't'
  | '\x08' => some 'b'
  | '\x0c' => some 'f'
  | _ => none

/-- One character inside a string. -/
def spell (c : Char) : List Char :=
  match escapeLetter? c with
  | some letter => ['\\', letter]
  | none =>
    if ' ' ≤ c ∧ c ≤ '~' then [c]
    else (units c).flatMap fun u => '\\' :: 'u' :: Text.Quoted.hex 4 u

/-- A text as a string of the document. -/
def stringText (text : String) : List Char :=
  '"' :: text.toList.flatMap spell ++ ['"']

/-- A code point inside a string. -/
def CodePoint.spell : CodePoint → List Char
  | .char c => Json.spell c
  | .half h => '\\' :: 'u' :: Text.Quoted.hex 4 h.val

/-- A string of the document that is no text. -/
def Torn.stringText (t : Torn) : List Char :=
  '"' :: t.points.flatMap CodePoint.spell ++ ['"']

/-- What a literal denotes, as a string of the document. -/
def Literal.stringText : Literal → List Char
  | .text s => Json.stringText s
  | .torn t => t.stringText

/-- A number; those without digits have names. -/
def numberText : Double → String
  | .undefined => "NaN"
  | .infinite negative => if negative then "-Infinity" else "Infinity"
  | x => x.toText

/-- How much further in each level begins. -/
def indent : Nat := 2

/-- The start of a line at a margin. -/
def newLine (margin : Nat) : List Char :=
  '\n' :: List.replicate margin ' '

mutual

/-- A value whose first line begins wherever it stands, and whose others begin at `margin`. -/
def write (margin : Nat) : Json → List Char
  | .null => "null".toList
  | .bool b => (if b then "true" else "false").toList
  | .int n => (toString n).toList
  | .double x => (numberText x).toList
  | .str s => stringText s
  | .torn t => t.stringText
  | .arr [] => "[]".toList
  | .arr (item :: rest) =>
    '[' :: newLine (margin + indent) ++ write (margin + indent) item ++
      writeItems (margin + indent) rest ++ newLine margin ++ [']']
  | .obj [] => ['{', '}']
  | .obj (first :: rest) =>
    '{' :: newLine (margin + indent) ++ writeMember (margin + indent) first ++
      writeMembers (margin + indent) rest ++ newLine margin ++ ['}']

/-- The further items of a list, each after a comma and on a line of its own. -/
def writeItems (margin : Nat) : List Json → List Char
  | [] => []
  | item :: rest => ',' :: newLine margin ++ write margin item ++ writeItems margin rest

/-- A member of an object. -/
def writeMember (margin : Nat) : Literal × Json → List Char
  | (name, value) => name.stringText ++ [':', ' '] ++ write margin value

/-- The further members of an object, each after a comma and on a line of its own. -/
def writeMembers (margin : Nat) : List (Literal × Json) → List Char
  | [] => []
  | m :: rest => ',' :: newLine margin ++ writeMember margin m ++ writeMembers margin rest

end

/-- The text of a document, without a newline at the end. -/
def render (value : Json) : String :=
  String.ofList (write 0 value)

end Tighten.Json
