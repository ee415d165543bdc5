import Tighten.Rust.Identifier

/-
The tokens of Rust text.

Words, numbers and quoted literals are tokens; every other visible character is a token by itself,
so that a reader of tokens decides whether two of them that touch make up one operator.  Blanks and
comments leave no token behind.  Keywords are words like any other: whether a word is a keyword
depends on where it stands.
-/
namespace Tighten.Rust

/-- What a token is. -/
inductive Lexeme where
  | word (text : String)
  /-- A dollar sign and a name. -/
  | metavariable
  | integer
  | float
  | character
  | text
  /-- A string in which a backslash means itself. -/
  | rawText
  /-- A first line that names an interpreter. -/
  | interpreter
  | glyph (c : Char)
deriving DecidableEq, Repr

/-- A token and the bytes it covers. -/
structure Token where
  lexeme : Lexeme
  start : Nat
  stop : Nat
deriving DecidableEq, Repr

/-! ### Lengths of lexemes

Each function gives the number of characters that the lexeme takes at the front of a text, or
nothing where the text does not begin with such a lexeme. -/

/-- The length of a name. -/
def nameLength? : List Char → Option Nat
  | c :: rest =>
    if isIdentStart c then some (1 + (rest.takeWhile isIdentContinue).length) else none
  | [] => none

/-- The word that begins a macro definition; its exclamation mark belongs to it. -/
def macroRules : String := "macro_rules!"

/-- The length of a word: a name, perhaps with the mark of a raw name before it. -/
def wordLength? : List Char → Option Nat
  | 'r' :: '#' :: rest =>
    match nameLength? rest with
    | some n => some (n + 2)
    | none => some 1
  | text =>
    match nameLength? text with
    | some n => if text.take (n + 1) = macroRules.toList then some (n + 1) else some n
    | none => none

/-- The length of a metavariable. -/
def metavariableLength? : List Char → Option Nat
  | '$' :: c :: rest =>
    if c.isAlpha || c == '_' then some (2 + (rest.takeWhile isIdentContinue).length) else none
  | _ => none

/-- The types that may follow the digits of a number without a space. -/
def numericTypes : List String :=
  ["u8", "i8", "u16", "i16", "u32", "i32", "u64", "i64", "u128", "i128", "isize", "usize",
    "f32", "f64"]

/-- The length of the longest numeric type at the front of a text; zero if there is none. -/
def suffixLength (text : List Char) : Nat :=
  numericTypes.foldl
    (fun best t => if t.toList.isPrefixOf text then max best t.length else best) 0

/-- Whether the character is a digit or an underscore. -/
def isDigitChar (c : Char) : Bool := c.isDigit || c == '_'

/-- Whether the character is a hexadecimal digit. -/
def isHexDigit (c : Char) : Bool :=
  c.isDigit || ('a' ≤ c && c ≤ 'f') || ('A' ≤ c && c ≤ 'F')

/-- The length of the digits of an integer in some base, mark of the base included. -/
def baseLength? (isDigit : Char → Bool) (rest : List Char) : Option Nat :=
  match (rest.takeWhile fun c => isDigit c || c == '_').length with
  | 0 => none
  | n => some (n + 2)

/-- The length of an integer's digits. -/
def integerDigits? : List Char → Option Nat
  | '0' :: 'x' :: rest => some ((baseLength? isHexDigit rest).getD 1)
  | '0' :: 'b' :: rest => some ((baseLength? (fun c => c == '0' || c == '1') rest).getD 1)
  | '0' :: 'o' :: rest => some ((baseLength? (fun c => '0' ≤ c && c ≤ '7') rest).getD 1)
  | c :: rest => if c.isDigit then some (1 + (rest.takeWhile isDigitChar).length) else none
  | [] => none

/-- The length of an integer. -/
def integerLength? (text : List Char) : Option Nat :=
  (integerDigits? text).map fun n => n + suffixLength (text.drop n)

/-- The length of a number's type mark: a letter and digits, or nothing. -/
def floatSuffix : List Char → Nat
  | c :: d :: rest =>
    if (c == 'u' || c == 'i' || c == 'f') && d.isDigit then
      2 + (rest.takeWhile Char.isDigit).length
    else 0
  | _ => 0

/-- The length of an exponent with at least one digit; zero if there is none. -/
def exponentLength : List Char → Nat
  | c :: rest =>
    if c == 'e' || c == 'E' then
      let sign := match rest with
        | '+' :: _ => 1
        | '-' :: _ => 1
        | _ => 0
      match ((rest.drop sign).takeWhile isDigitChar).length with
      | 0 => 0
      | n => 1 + sign + n
    else 0
  | [] => 0

/-- The length of a fraction with its point, where a point follows that no letter or second point
comes after. -/
def fractionLength? : List Char → Option Nat
  | '.' :: rest =>
    match rest with
    | c :: _ =>
      if c == '.' || (isIdentStart c && c != '_') then none
      else some (1 + (rest.takeWhile isDigitChar).length)
    | [] => some 1
  | _ => some 0

/-- The length of a number with a fraction or an exponent. -/
def floatLength? (text : List Char) : Option Nat :=
  match text with
  | c :: rest =>
    if c.isDigit then
      let whole := 1 + (rest.takeWhile isDigitChar).length
      match fractionLength? (text.drop whole) with
      | none => none
      | some fraction =>
        let exponent := exponentLength (text.drop (whole + fraction))
        if fraction == 0 && exponent == 0 then none
        else
          let n := whole + fraction + exponent
          some (n + floatSuffix (text.drop n))
    else none
  | [] => none

/-- The length of an escape, from the character after the backslash on. -/
def escapeLength? : List Char → Option Nat
  | 'x' :: a :: b :: _ => if isHexDigit a && isHexDigit b then some 3 else none
  | 'u' :: '{' :: rest =>
    let n := (rest.takeWhile isHexDigit).length
    if n == 0 then none
    else
      match rest.drop n with
      | '}' :: _ => some (n + 3)
      | _ => none
  | 'u' :: a :: b :: c :: d :: _ =>
    if [a, b, c, d].all isHexDigit then some 5 else none
  | c :: _ => if c == 'x' || c == 'u' then none else some 1
  | [] => none

/-- The length of a character literal, from the first quote on. -/
def quotedCharLength? : List Char → Option Nat
  | '\'' :: '\'' :: _ => some 2
  | '\'' :: '\\' :: rest =>
    match escapeLength? rest with
    | some n =>
      match rest.drop n with
      | '\'' :: _ => some (n + 3)
      | _ => none
    | none => none
  | '\'' :: _ :: '\'' :: _ => some 3
  | _ => none

/-- The length of a character literal. -/
def characterLength? : List Char → Option Nat
  | 'b' :: rest => (quotedCharLength? rest).map (· + 1)
  | text => quotedCharLength? text

/-- The length of the rest of a string after its opening quote, closing quote included; the first
`skip` characters are already accounted for. -/
def stringRest? : (skip : Nat) → List Char → Option Nat
  | _, [] => none
  | skip + 1, _ :: rest => (stringRest? skip rest).map (· + 1)
  | 0, c :: rest =>
    if c = '"' then some 1
    else if c = '\\' then
      match escapeLength? rest with
      | some n => (stringRest? n rest).map (· + 1)
      | none => none
    else (stringRest? 0 rest).map (· + 1)

/-- The length up to and including the first quote followed by `hashes` number signs. -/
def rawRest? (hashes : Nat) : List Char → Option Nat
  | [] => none
  | c :: rest =>
    if c = '"' ∧ rest.take hashes = List.replicate hashes '#' then some (1 + hashes)
    else (rawRest? hashes rest).map (· + 1)

/-- The reading of a string at the front of a text. -/
inductive StringReading where
  /-- The text does not begin with a string. -/
  | absent
  /-- A string begins and is not well formed to its end. -/
  | broken
  | found (lexeme : Lexeme) (length : Nat)
deriving DecidableEq, Repr

/-- The reading of the rest of a string, of which `opening` characters are read. -/
def closed (lexeme : Lexeme) (opening : Nat) : Option Nat → StringReading
  | some n => .found lexeme (opening + n)
  | none => .broken

/-- A raw string, from the letter that marks it on; `opening` characters were read before. -/
def rawString (opening : Nat) : List Char → StringReading
  | 'r' :: rest =>
    let hashes := (rest.takeWhile (· = '#')).length
    match rest.drop hashes with
    | '"' :: body => closed .rawText (opening + hashes + 2) (rawRest? hashes body)
    | _ => .absent
  | _ => .absent

/-- A string, raw or not, with or without a letter before it. -/
def stringLiteral (text : List Char) : StringReading :=
  match text with
  | '"' :: rest => closed .text 1 (stringRest? 0 rest)
  | 'b' :: '"' :: rest => closed .text 2 (stringRest? 0 rest)
  | 'c' :: '"' :: rest => closed .text 2 (stringRest? 0 rest)
  | 'b' :: rest => rawString 1 rest
  | 'c' :: rest => rawString 1 rest
  | _ => rawString 0 text

/-! ### Blanks and comments -/

/-- The characters that may stand between tokens. -/
def isSpace (c : Char) : Bool :=
  c == ' ' || (0x09 ≤ c.toNat && c.toNat ≤ 0x0D)

/-- What the last character of a block comment leads one to expect. -/
inductive CommentState where
  | plain
  | afterSlash
  | afterStar

/-- The length of the rest of a block comment that is `depth + 1` deep. -/
def blockRest? : (depth : Nat) → CommentState → List Char → Option Nat
  | _, _, [] => none
  | depth, .plain, c :: rest =>
    let next := if c = '/' then .afterSlash else if c = '*' then .afterStar else .plain
    (blockRest? depth next rest).map (· + 1)
  | depth, .afterSlash, c :: rest =>
    (blockRest? (if c = '*' then depth + 1 else depth) .plain rest).map (· + 1)
  | depth, .afterStar, c :: rest =>
    if c = '*' then (blockRest? depth .afterStar rest).map (· + 1)
    else if c = '/' then
      match depth with
      | 0 => some 1
      | d + 1 => (blockRest? d .plain rest).map (· + 1)
    else (blockRest? depth .plain rest).map (· + 1)

/-- What stands at the front of a text. -/
inductive Front where
  /-- A blank or a comment of this length. -/
  | trivia (length : Nat)
  | lexeme (lexeme : Lexeme) (length : Nat)
  | malformed

/-- The characters that are tokens by themselves. -/
def isGlyph (c : Char) : Bool :=
  c ∈ "!#$%&'()*+,-./:;<=>?@[]^\x7b|\x7d".toList

/-- The word, metavariable or single character at the front of a text. -/
def plainFront (text : List Char) : Front :=
  match wordLength? text with
  | some n => .lexeme (.word (String.ofList (text.take n))) n
  | none =>
    match metavariableLength? text with
    | some n => .lexeme .metavariable n
    | none =>
      match text with
      | c :: _ => if isGlyph c then .lexeme (.glyph c) 1 else .malformed
      | [] => .malformed

/-- The number at the front of a text; after a single point only an integer is one. -/
def numberFront? (afterPoint : Bool) (text : List Char) : Option Front :=
  match if afterPoint then none else floatLength? text with
  | some n => some (.lexeme .float n)
  | none => (integerLength? text).map (.lexeme .integer ·)

/-- The length of a line that names an interpreter, its newline included.  A bracket right after
the mark makes it an attribute instead. -/
def interpreterLength? : List Char → Option Nat
  | '#' :: '!' :: '[' :: _ => none
  | '#' :: '!' :: rest =>
    let line := rest.takeWhile (· ≠ '\n')
    if line.length < rest.length then some (line.length + 3) else none
  | _ => none

/-- What stands at the front of a text. -/
def front (afterPoint : Bool) (text : List Char) : Front :=
  match text with
  | [] => .malformed
  | '/' :: '/' :: rest => .trivia (2 + (rest.takeWhile (· ≠ '\n')).length)
  | '/' :: '*' :: rest =>
    match blockRest? 0 .plain rest with
    | some n => .trivia (n + 2)
    | none => .malformed
  | c :: _ =>
    if isSpace c then .trivia 1
    else
      match stringLiteral text with
      | .found lexeme n => .lexeme lexeme n
      | .broken => .malformed
      | .absent =>
        match characterLength? text with
        | some n => .lexeme .character n
        | none => (numberFront? afterPoint text).getD (plainFront text)

/-! ### The tokens of a text -/

/-- Whether the last token is a point that is not part of two or three. -/
def afterSinglePoint : List Token → Bool
  | a :: b :: _ =>
    a.lexeme == .glyph '.' && !(b.lexeme == .glyph '.' && b.stop == a.start)
  | [a] => a.lexeme == .glyph '.'
  | [] => false

/-- The tokens of a text that begins at byte `offset`, put before those already `found`, the last
one first, or the offset of the first character that begins no token.  Each step takes at least one
character, so `fuel` may be the number of characters. -/
def tokensFrom : (fuel offset : Nat) → (found : List Token) → List Char → Except Nat (List Token)
  | _, _, found, [] => .ok found.reverse
  | 0, offset, _, _ => .error offset
  | fuel + 1, offset, found, text =>
    let bytes (n : Nat) : Nat := ((text.take n).map Char.utf8Size).sum
    let next : Front := match if found.isEmpty then interpreterLength? text else none with
      | some n => .lexeme .interpreter n
      | none => front (afterSinglePoint found) text
    match next with
    | .malformed => .error offset
    | .trivia n => tokensFrom fuel (offset + bytes n) found (text.drop n)
    | .lexeme l n =>
      tokensFrom fuel (offset + bytes n) (⟨l, offset, offset + bytes n⟩ :: found) (text.drop n)

/-- The tokens of a file, or the offset of the first character that begins no token.  A byte order
mark at the very start is passed over. -/
def tokens (text : List Char) : Except Nat (List Token) :=
  match text with
  | '\uFEFF' :: rest => tokensFrom (rest.length + 1) 3 [] rest
  | _ => tokensFrom (text.length + 1) 0 [] text

end Tighten.Rust
