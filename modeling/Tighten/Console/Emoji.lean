import Tighten.Text.Blank

/-
Emoji codes.

A name between two colons, without blanks, stands for an emoji if the name is known.  A code whose
name is not known stays as it is, and its second colon does not begin another code.

Consoles know thousands of names, and a name may end in a wish for a form of its emoji.  None of
that is settled here: what a code is shown as is given.
-/
namespace Tighten.Console

/-- What codes are shown as, by their names; none for a name that is not known. -/
abbrev EmojiCodes := List Char → Option (List Char)

/-- The name of the code that begins with the colon before this text. -/
def emojiNameAt? (text : List Char) : Option (List Char) :=
  let name := text.takeWhile (· ≠ ':')
  if name.length < text.length && !name.any Text.isBlank then some name else none

/-- The text with known codes replaced, after `skip` characters that are already dealt with. -/
def replaceEmoji (codes : EmojiCodes) : (skip : Nat) → List Char → List Char
  | _, [] => []
  | skip + 1, _ :: rest => replaceEmoji codes skip rest
  | 0, c :: rest =>
    if c = ':' then
      match emojiNameAt? rest with
      | none => c :: replaceEmoji codes 0 rest
      | some name =>
        (codes name).getD (':' :: name ++ [':']) ++ replaceEmoji codes (name.length + 1) rest
    else c :: replaceEmoji codes 0 rest

end Tighten.Console
