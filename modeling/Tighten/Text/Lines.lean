/-
Lines of a text.

A text is cut at its newline characters, so it has one line more than it has newlines; the last
line is empty when the text ends in a newline.  No other character ends a line.
-/
namespace Tighten.Text

/-- The lines of a text, without their newlines. -/
def lines : List Char → List (List Char)
  | [] => [[]]
  | c :: rest =>
    if c = '\n' then [] :: lines rest
    else
      match lines rest with
      | [] => [[c]]
      | first :: others => (c :: first) :: others

theorem lines_ne_nil (text : List Char) : lines text ≠ [] := by
  cases text with
  | nil => simp [lines]
  | cons c rest =>
      by_cases h : c = '\n'
      · simp [lines, h]
      · simp only [lines, h, if_false]
        split <;> simp

/-- A text has one line more than it has newlines. -/
theorem length_lines (text : List Char) : (lines text).length = text.count '\n' + 1 := by
  induction text with
  | nil => simp [lines]
  | cons c rest ih =>
      by_cases h : c = '\n'
      · simp [lines, h, ih]
      · simp only [lines, h, if_false, List.count_cons]
        split
        · next hr => exact absurd hr (lines_ne_nil rest)
        · next first others hr =>
            rw [hr] at ih
            simpa [h] using ih

/-- Replaces each carriage return that stands before a newline, together with that newline, by the
newline alone. -/
def dropReturns : List Char → List Char
  | [] => []
  | [c] => [c]
  | c :: d :: rest =>
    if c = '\r' ∧ d = '\n' then '\n' :: dropReturns rest else c :: dropReturns (d :: rest)

/-- Replaces carriage returns, and carriage returns with the newline after them, by newlines. -/
def universalNewlines : List Char → List Char
  | [] => []
  | [c] => if c = '\r' then ['\n'] else [c]
  | c :: d :: rest =>
    if c = '\r' then
      if d = '\n' then '\n' :: universalNewlines rest else '\n' :: universalNewlines (d :: rest)
    else c :: universalNewlines (d :: rest)

end Tighten.Text
