/-
Blank characters: those that separate words in a text of any script.
-/
namespace Tighten.Text

/-- The characters that count as blank: the ASCII controls that move the cursor, the four
information separators, and every space of the Unicode separator classes. -/
def isBlank (c : Char) : Bool :=
  let n := c.toNat
  (0x09 ≤ n && n ≤ 0x0D) || (0x1C ≤ n && n ≤ 0x20) || n == 0x85 || n == 0xA0 || n == 0x1680
    || (0x2000 ≤ n && n ≤ 0x200A) || n == 0x2028 || n == 0x2029 || n == 0x202F || n == 0x205F
    || n == 0x3000

/-- The text without its blank characters. -/
def squeeze (text : List Char) : List Char :=
  text.filter fun c => !isBlank c

/-- The text without the blank characters at its two ends. -/
def trim (text : List Char) : List Char :=
  ((text.dropWhile isBlank).reverse.dropWhile isBlank).reverse

end Tighten.Text
