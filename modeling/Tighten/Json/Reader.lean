import Tighten.Json

/-
Reading JSON.

The reader works on the list of characters still unread.  A complaint is recorded with the number
of characters unread at the place it is about, so no position has to be carried along; the offset,
line and column are worked out once, when the complaint is reported.

Besides the standard grammar the reader knows the three words for numbers without digits, and a
name that appears twice in an object keeps its last value.

A reader has room for so many brackets inside each other, and one bracket more is an error of its
own.  How much room there is depends on the machine that reads, so it is given.  The items of one
list, or the members of one object, are counted against the length of the text, and each takes up
some of it.
-/
namespace Tighten.Json

/-! ### Complaints -/

/-- What was wrong with the text. -/
inductive Complaint where
  | value
  | memberName
  | colon
  | comma
  | extraData
  | unterminatedString
  | controlCharacter
  | escape
  | unicodeEscape
  | byteOrderMark
deriving DecidableEq, Repr

/-- The complaint in words. -/
def Complaint.message : Complaint → String
  | .value => "Expecting value"
  | .memberName => "Expecting property name enclosed in double quotes"
  | .colon => "Expecting ':' delimiter"
  | .comma => "Expecting ',' delimiter"
  | .extraData => "Extra data"
  | .unterminatedString => "Unterminated string starting at"
  | .controlCharacter => "Invalid control character at"
  | .escape => "Invalid \\escape"
  | .unicodeEscape => "Invalid \\uXXXX escape"
  | .byteOrderMark => "Unexpected UTF-8 BOM (decode using utf-8-sig)"

/-- The most digits that a whole number may have. -/
def maxDigits : Nat := 4300

/-- What is between brackets. -/
inductive Bracketed where
  | list
  | object
deriving DecidableEq, Repr

/-- What is between the brackets, in words. -/
def Bracketed.name : Bracketed → String
  | .list => "array"
  | .object => "object"

/-- Why reading stopped. -/
inductive Fault where
  /-- The text is not JSON; `unread` characters were left at the place complained about. -/
  | malformed (complaint : Complaint) (unread : Nat)
  /-- A whole number is too long to be converted. -/
  | tooLong (digits : Nat)
  /-- There is no room for a further bracket. -/
  | tooDeep (inside : Bracketed)
deriving DecidableEq, Repr

/-- Why a text could not be read, with the place in it. -/
inductive ReadError where
  | malformed (complaint : Complaint) (line column offset : Nat)
  | tooLong (digits : Nat)
  | tooDeep (inside : Bracketed)
deriving DecidableEq, Repr

/-- The report of an error. -/
def ReadError.message : ReadError → String
  | .malformed complaint line column offset =>
    s!"{complaint.message}: line {line} column {column} (char {offset})"
  | .tooLong digits =>
    s!"Exceeds the limit ({maxDigits} digits) for integer string conversion: " ++
      s!"value has {digits} digits; use sys.set_int_max_str_digits() to increase the limit"
  | .tooDeep inside =>
    s!"maximum recursion depth exceeded while decoding a JSON {inside.name} from a unicode string"

/-- Places a fault in the text it was found in. -/
def Fault.locate (text : List Char) : Fault → ReadError
  | .tooLong digits => .tooLong digits
  | .tooDeep inside => .tooDeep inside
  | .malformed complaint unread =>
    let offset := text.length - unread
    let before := text.take offset
    let lastLine := before.reverse.takeWhile (· ≠ '\n')
    .malformed complaint (before.count '\n' + 1) (lastLine.length + 1) offset

/-- A reader's result: the value and the characters after it. -/
abbrev Reading (α : Type) := Except Fault (α × List Char)

/-- Stops with a complaint about the place where `rest` begins. -/
def complain {α : Type} (complaint : Complaint) (rest : List Char) : Reading α :=
  .error (.malformed complaint rest.length)

/-! ### Blanks -/

/-- The characters allowed between tokens. -/
def isSpace (c : Char) : Bool :=
  c == ' ' || c == '\t' || c == '\n' || c == '\r'

/-- The text from the first character that is not a blank. -/
def skipSpace (text : List Char) : List Char :=
  text.dropWhile isSpace

/-! ### Strings -/

/-- The value of a hexadecimal digit. -/
def hexDigit? (c : Char) : Option Nat :=
  if '0' ≤ c ∧ c ≤ '9' then some (c.toNat - 48)
  else if 'a' ≤ c ∧ c ≤ 'f' then some (c.toNat - 87)
  else if 'A' ≤ c ∧ c ≤ 'F' then some (c.toNat - 55)
  else none

/-- The value of four hexadecimal digits. -/
def hexFour? (a b c d : Char) : Option Nat :=
  match hexDigit? a, hexDigit? b, hexDigit? c, hexDigit? d with
  | some a, some b, some c, some d => some (((a * 16 + b) * 16 + c) * 16 + d)
  | _, _, _, _ => none

/-- Whether a code unit is the first half of a surrogate pair. -/
def isHighSurrogate (n : Nat) : Bool := 0xD800 ≤ n && n ≤ 0xDBFF

/-- Whether a code unit is the second half of a surrogate pair. -/
def isLowSurrogate (n : Nat) : Bool := 0xDC00 ≤ n && n ≤ 0xDFFF

/-- The character that a surrogate pair stands for. -/
def joinSurrogates (high low : Nat) : Char :=
  Char.ofNat (0x10000 + (high - 0xD800) * 1024 + (low - 0xDC00))

/-- What a code unit outside a pair stands for. -/
def unpaired (n : Nat) : CodePoint :=
  if h : 0xD800 ≤ n ∧ n ≤ 0xDFFF then .half ⟨n, h⟩ else .char (Char.ofNat n)

/-- The character that a one-letter escape stands for. -/
def simpleEscape? : Char → Option Char
  | '"' => some '"'
  | '\\' => some '\\'
  | '/' => some '/'
  | 'b' => some '\x08'
  | 'f' => some '\x0c'
  | 'n' => some '\n'
  | 'r' => some '\r'
  | 't' => some '\t'
  | _ => none

/-- A four-digit escape, of which `text` is what follows the letter: what it stands for and how many
characters of `text` spell it.  Two escapes that make up a surrogate pair are read together. -/
def unicodeEscape (text : List Char) : Except Fault (CodePoint × Nat) :=
  match text with
  | a :: b :: c :: d :: next :: rest =>
    match hexFour? a b c d with
    | none => .error (.malformed .unicodeEscape (text.length + 1))
    | some high =>
      match isHighSurrogate high, next, rest with
      | true, '\\', 'u' :: a' :: b' :: c' :: d' :: _ :: _ =>
        match hexFour? a' b' c' d' with
        | none => .error (.malformed .unicodeEscape rest.length)
        | some low =>
          if isLowSurrogate low then .ok (.char (joinSurrogates high low), 10)
          else .ok (unpaired high, 4)
      | _, _, _ => .ok (unpaired high, 4)
  | _ => .error (.malformed .unicodeEscape (text.length + 1))

/-- One character inside a string literal: what it denotes and how many characters follow the
first one in its spelling.  A literal that ends here was opened with `opening` unread. -/
def spelled (opening : Nat) (c : Char) (rest : List Char) : Except Fault (CodePoint × Nat) :=
  if c = '\\' then
    match rest with
    | [] => .error (.malformed .unterminatedString opening)
    | 'u' :: rest =>
      match unicodeEscape rest with
      | .ok (e, n) => .ok (e, n + 1)
      | .error e => .error e
    | l :: rest =>
      match simpleEscape? l with
      | some e => .ok (.char e, 1)
      | none => .error (.malformed .escape (rest.length + 2))
  else if c.toNat ≤ 0x1F then .error (.malformed .controlCharacter (rest.length + 1))
  else .ok (.char c, 0)

/-- Puts a code point in front of those already read. -/
def push (p : CodePoint) : Reading (List CodePoint) → Reading (List CodePoint)
  | .ok (ps, rest) => .ok (p :: ps, rest)
  | .error e => .error e

/-- Reads up to the closing quote; the first `skip` characters are already accounted for. -/
def stringBody (opening : Nat) : (skip : Nat) → List Char → Reading (List CodePoint)
  | _, [] => .error (.malformed .unterminatedString opening)
  | skip + 1, _ :: rest => stringBody opening skip rest
  | 0, c :: rest =>
    if c = '"' then .ok ([], rest)
    else
      match spelled opening c rest with
      | .ok (e, n) => push e (stringBody opening n rest)
      | .error e => .error e

/-! ### Numbers -/

/-- Splits a text after its leading digits. -/
def spanDigits (text : List Char) : List Char × List Char :=
  text.span Char.isDigit

/-- The whole number that a list of digits denotes. -/
def digitsValue (digits : List Char) : Nat :=
  digits.foldl (fun n c => n * 10 + (c.toNat - 48)) 0

/-- The digits of a fraction, if a point and a digit come next. -/
def fraction : List Char → Option (List Char × List Char)
  | '.' :: c :: rest => if c.isDigit then some (spanDigits (c :: rest)) else none
  | _ => none

/-- Reads the digits after an exponent mark and its sign. -/
def exponentDigits (negative : Bool) (text : List Char) : Option (Int × List Char) :=
  match spanDigits text with
  | ([], _) => none
  | (ds, rest) =>
    some (if negative then -(digitsValue ds : Int) else (digitsValue ds : Int), rest)

/-- An exponent, if a complete one comes next. -/
def exponent : List Char → Option (Int × List Char)
  | c :: rest =>
    if c == 'e' || c == 'E' then
      match rest with
      | '-' :: more => exponentDigits true more
      | '+' :: more => exponentDigits false more
      | _ => exponentDigits false rest
    else none
  | [] => none

/-- The digits of a whole part: a zero alone, or digits that do not begin with zero. -/
def wholePart : List Char → Option (List Char × List Char)
  | '0' :: rest => some (['0'], rest)
  | c :: rest => if c.isDigit then some (spanDigits (c :: rest)) else none
  | [] => none

/-- The number that begins after an optional sign; `start` is where the number began. -/
def magnitude (negative : Bool) (start text : List Char) : Reading Json :=
  match wholePart text with
  | none => complain .value start
  | some (whole, rest) =>
    let (frac, afterFraction) := match fraction rest with
      | some (ds, r) => (some ds, r)
      | none => (none, rest)
    let (exp, afterExponent) := match exponent afterFraction with
      | some (e, r) => (some e, r)
      | none => (none, afterFraction)
    if frac.isNone && exp.isNone then
      if maxDigits < whole.length then .error (.tooLong whole.length)
      else
        let n : Int := digitsValue whole
        .ok (.int (if negative then -n else n), afterExponent)
    else
      let ds := frac.getD []
      let x := Double.ofDecimal negative (digitsValue (whole ++ ds)) (exp.getD 0 - ds.length)
      .ok (.double x, afterExponent)

/-- The text after a word, if it begins with the word. -/
def afterWord? (word : String) (text : List Char) : Option (List Char) :=
  if word.toList.isPrefixOf text then some (text.drop word.length) else none

/-- A number, or one of the words that stand for a value. -/
def scalar (text : List Char) : Reading Json :=
  let words : List (String × Json) :=
    [("null", .null), ("true", .bool true), ("false", .bool false), ("NaN", .double .undefined),
      ("Infinity", .double (.infinite false)), ("-Infinity", .double (.infinite true))]
  match words.findSome? fun (w, v) => (afterWord? w text).map fun r => (v, r) with
  | some found => .ok found
  | none =>
    match text with
    | '-' :: rest => magnitude true text rest
    | _ => magnitude false text text

/-! ### Values -/

/-- Reads one value, of which what follows an opening bracket and blanks is left to others. -/
def valueUsing (list object : List Char → Reading Json) (text : List Char) : Reading Json :=
  match text with
  | '"' :: rest =>
    match stringBody text.length 0 rest with
    | .ok (points, rest) => .ok ((Literal.ofPoints points).value, rest)
    | .error e => .error e
  | '{' :: rest => object (skipSpace rest)
  | '[' :: rest => list (skipSpace rest)
  | _ => scalar text

/-- Reads at most `left` items of a list from a value on; `found` holds the earlier ones, last
first. -/
def itemsUsing (value : List Char → Reading Json) :
    (left : Nat) → (found : List Json) → List Char → Reading Json
  | 0, _, text => complain .value text
  | left + 1, found, text =>
    match value text with
    | .error e => .error e
    | .ok (item, rest) =>
      match skipSpace rest with
      | ']' :: rest => .ok (.arr (item :: found).reverse, rest)
      | ',' :: rest => itemsUsing value left (item :: found) (skipSpace rest)
      | rest => complain .comma rest

/-- Reads at most `left` members of an object from a name on; `found` holds the earlier ones. -/
def membersUsing (value : List Char → Reading Json) :
    (left : Nat) → (found : List (Literal × Json)) → List Char → Reading Json
  | 0, _, text => complain .memberName text
  | left + 1, found, text =>
    match text with
    | '"' :: rest =>
      match stringBody text.length 0 rest with
      | .error e => .error e
      | .ok (name, rest) =>
        match skipSpace rest with
        | ':' :: rest =>
          match value (skipSpace rest) with
          | .error e => .error e
          | .ok (member, rest) =>
            let found := put found (Literal.ofPoints name) member
            match skipSpace rest with
            | '}' :: rest => .ok (.obj found, rest)
            | ',' :: rest => membersUsing value left found (skipSpace rest)
            | rest => complain .comma rest
        | rest => complain .colon rest
    | _ => complain .memberName text

/-- Reads a list after its opening bracket.  Every item takes up some of the text, so there are no
more of them than characters. -/
def listUsing (value : List Char → Reading Json) (text : List Char) : Reading Json :=
  match text with
  | ']' :: rest => .ok (.arr [], rest)
  | _ => itemsUsing value text.length [] text

/-- Reads an object after its opening bracket. -/
def objectUsing (value : List Char → Reading Json) (text : List Char) : Reading Json :=
  match text with
  | '}' :: rest => .ok (.obj [], rest)
  | _ => membersUsing value text.length [] text

/-- Reads one value, with room for so many brackets inside each other. -/
def valueAt : (room : Nat) → List Char → Reading Json
  | 0 => valueUsing (fun _ => .error (.tooDeep .list)) (fun _ => .error (.tooDeep .object))
  | room + 1 => valueUsing (listUsing (valueAt room)) (objectUsing (valueAt room))

/-- Reads a whole document. -/
def document (room : Nat) (text : List Char) : Except Fault Json :=
  match text with
  | '\uFEFF' :: _ => .error (.malformed .byteOrderMark text.length)
  | _ =>
    match valueAt room (skipSpace text) with
    | .error e => .error e
    | .ok (value, rest) =>
      match skipSpace rest with
      | [] => .ok value
      | rest => .error (.malformed .extraData rest.length)

/-- The value that a text denotes, or what is wrong with the text and where, with room for so many
brackets inside each other. -/
def parse (room : Nat) (text : String) : Except ReadError Json :=
  match document room text.toList with
  | .ok value => .ok value
  | .error e => .error (e.locate text.toList)

end Tighten.Json
