import Tighten.Json
import Tighten.Number.Shortest
import Tighten.Text.Quoted

/-
JSON values as they are shown in reports.

A report names the value that it complains about and what kind of value it is.  Values are shown on
one line, texts between quotation marks, and a long value only by its two ends.  How long a value is
and where it is cut is a matter of bytes in UTF-8, but no character is cut in two.
-/
namespace Tighten.Json

/-- The kind of a value. -/
def kindName : Json → String
  | .null => "NoneType"
  | .bool _ => "bool"
  | .int _ => "int"
  | .double _ => "float"
  | .str _ => "str"
  | .torn _ => "str"
  | .arr _ => "list"
  | .obj _ => "dict"

/-- A code point of a string quoted with `quote`. -/
def CodePoint.quoted (quote : Char) : CodePoint → List Char
  | .char c => Text.Quoted.spell quote c
  | .half h => '\\' :: 'u' :: Text.Quoted.hex 4 h.val

/-- A string that is no text, between quotation marks. -/
def Torn.quoted (t : Torn) : List Char :=
  let q := Text.Quoted.mark (t.points.filterMap CodePoint.char?)
  q :: t.points.flatMap (CodePoint.quoted q) ++ [q]

/-- What a literal denotes, between quotation marks. -/
def Literal.quoted : Literal → List Char
  | .text s => (Text.quote s).toList
  | .torn t => t.quoted

mutual

/-- A value on one line. -/
def shown : Json → List Char
  | .null => "None".toList
  | .bool b => (if b then "True" else "False").toList
  | .int n => (toString n).toList
  | .double x => x.toText.toList
  | .str s => (Text.quote s).toList
  | .torn t => t.quoted
  | .arr [] => ['[', ']']
  | .arr (item :: rest) => '[' :: shown item ++ shownItems rest ++ [']']
  | .obj [] => ['{', '}']
  | .obj (first :: rest) => '{' :: shownMember first ++ shownMembers rest ++ ['}']

/-- The further items of a list. -/
def shownItems : List Json → List Char
  | [] => []
  | item :: rest => [',', ' '] ++ shown item ++ shownItems rest

/-- A member of an object. -/
def shownMember : Literal × Json → List Char
  | (name, value) => name.quoted ++ [':', ' '] ++ shown value

/-- The further members of an object. -/
def shownMembers : List (Literal × Json) → List Char
  | [] => []
  | m :: rest => [',', ' '] ++ shownMember m ++ shownMembers rest

end

/-- The most bytes of a value that is shown whole. -/
def wholeWidth : Nat := 50

/-- As much of the front of a text as takes no more than that many bytes. -/
def front : (bytes : Nat) → List Char → List Char
  | _, [] => []
  | bytes, c :: rest => if c.utf8Size ≤ bytes then c :: front (bytes - c.utf8Size) rest else []

/-- As much of the end of a text as takes no more than that many bytes. -/
def back (bytes : Nat) (text : List Char) : List Char :=
  (front bytes text.reverse).reverse

/-- A value as reports show it: a long one by its first 25 and last 24 bytes. -/
def excerpt (value : Json) : String :=
  let text := shown value
  if (String.ofList text).utf8ByteSize ≤ wholeWidth then String.ofList text
  else String.ofList (front (wholeWidth / 2) text ++ "...".toList ++ back (wholeWidth / 2 - 1) text)

end Tighten.Json
