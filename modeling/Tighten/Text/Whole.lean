import Tighten.Text.Blank

/-
Whole numbers as users write them.

A sign may come first, single underscores may stand between digits, and blanks around the number do
not count.  The digits of any script will do.
-/
namespace Tighten.Text

/-- The zeros of all scripts; the other nine digits of a script follow its zero. -/
def zeros : List Nat :=
  [0x30, 0x660, 0x6F0, 0x7C0, 0x966, 0x9E6, 0xA66, 0xAE6, 0xB66, 0xBE6, 0xC66, 0xCE6, 0xD66, 0xDE6,
   0xE50, 0xED0, 0xF20, 0x1040, 0x1090, 0x17E0, 0x1810, 0x1946, 0x19D0, 0x1A80, 0x1A90, 0x1B50,
   0x1BB0, 0x1C40, 0x1C50, 0xA620, 0xA8D0, 0xA900, 0xA9D0, 0xA9F0, 0xAA50, 0xABF0, 0xFF10, 0x104A0,
   0x10D30, 0x11066, 0x110F0, 0x11136, 0x111D0, 0x112F0, 0x11450, 0x114D0, 0x11650, 0x116C0,
   0x11730, 0x118E0, 0x11950, 0x11C50, 0x11D50, 0x11DA0, 0x16A60, 0x16AC0, 0x16B50, 0x1D7CE,
   0x1D7D8, 0x1D7E2, 0x1D7EC, 0x1D7F6, 0x1E140, 0x1E2F0, 0x1E950, 0x1FBF0]

/-- The value of a digit. -/
def digitValue? (c : Char) : Option Nat :=
  (zeros.find? fun z => z ≤ c.toNat && c.toNat < z + 10).map (c.toNat - ·)

/-- Reads digits, with single underscores between them, after a number that is already read. -/
def moreDigits? : (read : Nat) → List Char → Option Nat
  | n, [] => some n
  | n, '_' :: c :: rest => (digitValue? c).bind fun d => moreDigits? (n * 10 + d) rest
  | n, c :: rest => (digitValue? c).bind fun d => moreDigits? (n * 10 + d) rest

/-- Reads a number that begins with a digit. -/
def digits? : List Char → Option Nat
  | [] => none
  | c :: rest => (digitValue? c).bind fun d => moreDigits? d rest

/-- The most digits that are converted. -/
def maxDigits : Nat := 4300

/-- The whole number that a text denotes. -/
def whole? (text : String) : Option Int :=
  let body := trim text.toList
  if maxDigits < (body.filter fun c => (digitValue? c).isSome).length then none
  else
    match body with
    | '-' :: rest => (digits? rest).map fun n => -(n : Int)
    | '+' :: rest => (digits? rest).map fun n => (n : Int)
    | rest => (digits? rest).map fun n => (n : Int)

end Tighten.Text
