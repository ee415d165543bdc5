import Tighten.Text.Printable

/-
Quoted texts.

A text is quoted with apostrophes, or with quotation marks when it holds an apostrophe and no
quotation mark.  Inside, the chosen mark and the backslash are preceded by a backslash, the three
usual control characters have a letter, and any other character that would not show is written by
number in two, four or eight hexadecimal digits.
-/
namespace Tighten.Text.Quoted

/-- The mark to quote a text with. -/
def mark (text : List Char) : Char :=
  if '\'' ∈ text ∧ '"' ∉ text then '"' else '\''

/-- A number as exactly `width` lower-case hexadecimal digits. -/
def hex (width n : Nat) : List Char :=
  let ds := Nat.toDigits 16 n
  List.replicate (width - ds.length) '0' ++ ds

/-- One character of a text quoted with `quote`. -/
def spell (quote c : Char) : List Char :=
  if c = quote ∨ c = '\\' then ['\\', c]
  else if c = '\n' then ['\\', 'n']
  else if c = '\r' then ['\\', 'r']
  else if c = '\t' then ['\\', 't']
  else if isPrintable c then [c]
  else if c.toNat < 0x100 then '\\' :: 'x' :: hex 2 c.toNat
  else if c.toNat < 0x10000 then '\\' :: 'u' :: hex 4 c.toNat
  else '\\' :: 'U' :: hex 8 c.toNat

/-- A text between quotation marks. -/
def encode (text : List Char) : List Char :=
  let q := mark text
  q :: text.flatMap (spell q) ++ [q]

end Tighten.Text.Quoted

namespace Tighten.Text

/-- A text between quotation marks. -/
def quote (text : String) : String :=
  String.ofList (Quoted.encode text.toList)

end Tighten.Text
