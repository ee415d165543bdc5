import Tighten.Json
import Tighten.Text.Blank

/-
Fields of a record that is given as JSON.

A field is read leniently where the intention is clear: a whole number may be written as a text or
as a number with a zero fraction, a truth value as one of a few words.  A number with a zero
fraction must be within 64 bits for that, though whole numbers may be larger.  Whatever is refused
is refused for a stated cause, and a record reports every field it refuses, in the order in which
the record declares them.
-/
namespace Tighten

/-- Why a value is refused. -/
inductive FieldFault where
  | notWhole
  | unreadableWhole
  | overlongWhole
  | fractionalWhole
  | notFinite
  | below (least : Nat)
  | notNumber
  | unreadableNumber
  | notAbove (bound : Nat)
  | notTruth
  | unreadableTruth
  | notText
  /-- A string with half of a surrogate pair in it. -/
  | tornText
  | notList
  /-- Not one of the listed words. -/
  | notListed (allowed : List String)
  /-- A rule about the record as a whole is broken. -/
  | broken (rule : String)
deriving DecidableEq, Repr

/-- The words joined as in a sentence: commas between them and "or" before the last. -/
def orList : List String → String
  | [] => ""
  | [a] => a
  | [a, b] => a ++ " or " ++ b
  | a :: rest => a ++ ", " ++ orList rest

namespace FieldFault

/-- The short name of the cause. -/
def name : FieldFault → String
  | .notWhole => "int_type"
  | .unreadableWhole => "int_parsing"
  | .overlongWhole => "int_parsing_size"
  | .fractionalWhole => "int_from_float"
  | .notFinite => "finite_number"
  | .below _ => "greater_than_equal"
  | .notNumber => "float_type"
  | .unreadableNumber => "float_parsing"
  | .notAbove _ => "greater_than"
  | .notTruth => "bool_type"
  | .unreadableTruth => "bool_parsing"
  | .notText => "string_type"
  | .tornText => "string_unicode"
  | .notList => "list_type"
  | .notListed _ => "enum"
  | .broken _ => "value_error"

/-- The cause as a sentence. -/
def message : FieldFault → String
  | .notWhole => "Input should be a valid integer"
  | .unreadableWhole => "Input should be a valid integer, unable to parse string as an integer"
  | .overlongWhole => "Unable to parse input string as an integer, exceeded maximum size"
  | .fractionalWhole => "Input should be a valid integer, got a number with a fractional part"
  | .notFinite => "Input should be a finite number"
  | .below least => s!"Input should be greater than or equal to {least}"
  | .notNumber => "Input should be a valid number"
  | .unreadableNumber => "Input should be a valid number, unable to parse string as a number"
  | .notAbove bound => s!"Input should be greater than {bound}"
  | .notTruth => "Input should be a valid boolean"
  | .unreadableTruth => "Input should be a valid boolean, unable to interpret input"
  | .notText => "Input should be a valid string"
  | .tornText =>
    "Input should be a valid string, unable to parse raw data as a unicode string"
  | .notList => "Input should be a valid list"
  | .notListed allowed =>
    "Input should be " ++ orList (allowed.map fun w => "'" ++ w ++ "'")
  | .broken rule => "Value error, " ++ rule

end FieldFault

/-- A refused value: where it stands in the record, why it is refused, and the value. -/
structure FieldError where
  path : List String
  fault : FieldFault
  input : Json
deriving Repr

/-- The outcome of reading one field. -/
abbrev FieldResult (α : Type) := Except FieldFault α

namespace Field

/-! ### Texts of numbers -/

/-- Blank for the purpose of trimming a number's text: the information separators are not. -/
def isPadding (c : Char) : Bool :=
  Text.isBlank c && !(0x1C ≤ c.toNat && c.toNat ≤ 0x1F)

/-- The text without padding at its two ends. -/
def unpad (text : List Char) : List Char :=
  ((text.dropWhile isPadding).reverse.dropWhile isPadding).reverse

/-- Whether each underscore stands between two other characters that are not underscores. -/
def goodUnderscores : List Char → Bool
  | [] => true
  | [c] => c != '_'
  | c :: d :: rest =>
    if d = '_' then
      match rest with
      | [] => false
      | e :: _ => c != '_' && e != '_' && goodUnderscores (d :: rest)
    else goodUnderscores (d :: rest)

/-- The text without its underscores, if each separates two characters. -/
def withoutUnderscores? (text : List Char) : Option (List Char) :=
  if text.head? ≠ some '_' && goodUnderscores text then some (text.filter (· ≠ '_')) else none

/-- The value of a text of digits, if it is one. -/
def digits? (text : List Char) : Option Nat :=
  if !text.isEmpty && text.all Char.isDigit then
    some (text.foldl (fun n c => n * 10 + (c.toNat - 48)) 0)
  else none

/-- The text without its sign, and whether the sign is a minus. -/
def unsign : List Char → Bool × List Char
  | '-' :: rest => (true, rest)
  | '+' :: rest => (false, rest)
  | text => (false, text)

/-- The most digits that the text of a whole number may have, zeros at the front not counted. -/
def maxWholeDigits : Nat := 4300

/-- Reads a whole number: a sign, digits with single underscores between them, and perhaps a point
with nothing but zeros after it. -/
def wholeText (text : List Char) : FieldResult Int :=
  let (negative, body) := unsign (unpad text)
  let (front, fraction) := body.span (· ≠ '.')
  let zeros := match fraction with
    | [] => true
    | _ :: ds => !ds.isEmpty && ds.all (· = '0')
  match withoutUnderscores? front with
  | none => .error .unreadableWhole
  | some ds =>
    match digits? ds with
    | none => .error .unreadableWhole
    | some n =>
      if !zeros then .error .unreadableWhole
      else if maxWholeDigits < (ds.dropWhile (· = '0')).length then .error .overlongWhole
      else .ok (if negative then -(n : Int) else n)

/-- Reads digits with an optional fraction and exponent, at least one digit before the
exponent. -/
def decimal? (negative : Bool) (text : List Char) : Option Double :=
  let (whole, afterWhole) := text.span Char.isDigit
  let (fraction, afterFraction) := match afterWhole with
    | '.' :: rest => rest.span Char.isDigit
    | rest => ([], rest)
  let value (n : List Char) : Nat := n.foldl (fun n c => n * 10 + (c.toNat - 48)) 0
  let exponent? : Option Int := match afterFraction with
    | [] => some 0
    | c :: rest =>
      if c = 'e' ∨ c = 'E' then
        let (minus, ds) := unsign rest
        (digits? ds).map fun e => if minus then -(e : Int) else e
      else none
  match exponent? with
  | none => none
  | some e =>
    if whole.isEmpty && fraction.isEmpty then none
    else some (Double.ofDecimal negative (value (whole ++ fraction)) (e - fraction.length))

/-- Reads a number, or one of the words for the numbers without digits. -/
def numberText? (text : List Char) : Option Double :=
  let (negative, body) := unsign text
  let word := String.ofList (body.map Char.toLower)
  if word = "inf" ∨ word = "infinity" then some (.infinite negative)
  else if word = "nan" then some .undefined
  else decimal? negative body

/-! ### Kinds of field -/

/-- A double as a whole number, which must lie strictly between the bounds of 64 bits. -/
def wholeDouble (x : Double) : FieldResult Int :=
  if !x.isFinite then .error .notFinite
  else
    match x.toInt? with
    | none => .error .fractionalWhole
    | some n => if n.natAbs < Nat.pow 2 63 then .ok n else .error .overlongWhole

/-- A whole number. -/
def whole : Json → FieldResult Int
  | .int n => .ok n
  | .bool b => .ok (if b then 1 else 0)
  | .double x => wholeDouble x
  | .str s => wholeText s.toList
  | .torn _ => .error .tornText
  | _ => .error .notWhole

/-- A whole number that is at least `least`. -/
def wholeFrom (least : Nat) (value : Json) : FieldResult { n : Nat // least ≤ n } :=
  match whole value with
  | .error e => .error e
  | .ok n => if h : n < least then .error (.below least) else .ok ⟨n.toNat, by omega⟩

/-- The text of a number.  Padding is allowed and so are underscores, but not both. -/
def doubleText (text : List Char) : FieldResult Double :=
  match numberText? (unpad text) with
  | some x => .ok x
  | none =>
    match (withoutUnderscores? text).bind numberText? with
    | some x => .ok x
    | none => .error .unreadableNumber

/-- A number above zero, in double precision. -/
def positive (value : Json) : FieldResult { x : Double // x.isPositive = true } :=
  let number : FieldResult Double := match value with
    | .double x => .ok x
    | .int n =>
      let x := Double.ofInt n
      if x.isFinite then .ok x else .error .notNumber
    | .bool b => .ok (Double.ofInt (if b then 1 else 0))
    | .str s => doubleText s.toList
    | .torn _ => .error .tornText
    | _ => .error .notNumber
  match number with
  | .error e => .error e
  | .ok x => if h : x.isPositive = true then .ok ⟨x, h⟩ else .error (.notAbove 0)

/-- A whole number as a truth value. -/
def truthOfWhole (n : Int) : FieldResult Bool :=
  if n = 0 then .ok false
  else if n = 1 then .ok true
  else if -(Int.pow 2 63) ≤ n ∧ n < Int.pow 2 63 then .error .unreadableTruth
  else .error .notTruth

/-- A truth value. -/
def truth : Json → FieldResult Bool
  | .bool b => .ok b
  | .int n => truthOfWhole n
  | .double x =>
    match wholeDouble x with
    | .ok n => truthOfWhole n
    | .error _ => .error .notTruth
  | .torn _ => .error .tornText
  | .str s =>
    let word := s.map Char.toLower
    if word ∈ ["0", "off", "f", "false", "n", "no"] then .ok false
    else if word ∈ ["1", "on", "t", "true", "y", "yes"] then .ok true
    else .error .unreadableTruth
  | _ => .error .notTruth

/-- A text. -/
def text : Json → FieldResult String
  | .str s => .ok s
  | .torn _ => .error .tornText
  | _ => .error .notText

/-- An absent value, or a value of another kind. -/
def optional {α : Type} (kind : Json → FieldResult α) : Json → FieldResult (Option α)
  | .null => .ok none
  | value => (kind value).map some

/-- Names the field that a fault belongs to. -/
def named {α : Type} (name : String) (value : Json) (result : FieldResult α) :
    Except (List FieldError) α :=
  match result with
  | .ok a => .ok a
  | .error fault => .error [⟨[name], fault, value⟩]

/-- The texts of a list, or every item that is not one; `index` numbers the next item. -/
def textItems (name : String) (index : Nat) : List Json → Except (List FieldError) (List String)
  | [] => .ok []
  | item :: rest =>
    match text item, textItems name (index + 1) rest with
    | .ok s, .ok ss => .ok (s :: ss)
    | .ok _, .error es => .error es
    | .error fault, .ok _ => .error [⟨[name, toString index], fault, item⟩]
    | .error fault, .error es => .error (⟨[name, toString index], fault, item⟩ :: es)

/-- A list of texts. -/
def texts (name : String) : Json → Except (List FieldError) (List String)
  | .arr items => textItems name 0 items
  | value => .error [⟨[name], .notList, value⟩]

end Field

/-! ### Results of several fields -/

/-- Both results, or all errors of both in order. -/
def both {α β : Type} (a : Except (List FieldError) α) (b : Except (List FieldError) β) :
    Except (List FieldError) (α × β) :=
  match a, b with
  | .ok a, .ok b => .ok (a, b)
  | .ok _, .error es => .error es
  | .error es, .ok _ => .error es
  | .error es, .error es' => .error (es ++ es')

end Tighten
