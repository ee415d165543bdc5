import Tighten.Number.Double

/-
JSON values.

Whole numbers and numbers with a fraction or an exponent are different values: `1` and `1.0` are
told apart wherever a setting is reported back to the user.  A string may escape half of a surrogate
pair and not the other half; what it denotes is then no text, and it is kept as it is until someone
asks for a text.  An object keeps its members in the order in which their names first appeared.
-/
namespace Tighten

namespace Json

/-- Half of a surrogate pair, which is the number of no character. -/
abbrev Half := { n : Nat // 0xD800 ≤ n ∧ n ≤ 0xDFFF }

/-- What strings are made of: characters, and halves of pairs that stand alone. -/
inductive CodePoint where
  | char (c : Char)
  | half (h : Half)
deriving DecidableEq, Repr

/-- The character, unless it is half of one. -/
def CodePoint.char? : CodePoint → Option Char
  | .char c => some c
  | .half _ => none

/-- A string that is no text, since half of a pair stands in it. -/
structure Torn where
  points : List CodePoint
  has_half : points.any (·.char?.isNone) = true
deriving DecidableEq, Repr

/-- What a string literal denotes. -/
inductive Literal where
  | text (s : String)
  | torn (t : Torn)
deriving DecidableEq, Repr

/-- A text is denoted by a literal. -/
instance : Coe String Literal := ⟨.text⟩

/-- What a literal with these code points denotes. -/
def Literal.ofPoints (points : List CodePoint) : Literal :=
  if h : points.any (·.char?.isNone) = true then .torn ⟨points, h⟩
  else .text (String.ofList (points.filterMap CodePoint.char?))

end Json

/-- A JSON document. -/
inductive Json where
  | null
  | bool (b : Bool)
  | int (n : Int)
  | double (x : Double)
  | str (s : String)
  | torn (t : Json.Torn)
  | arr (items : List Json)
  | obj (members : List (Json.Literal × Json))
deriving Repr

namespace Json

/-- The string that a literal denotes, as a document. -/
def Literal.value : Literal → Json
  | .text s => .str s
  | .torn t => .torn t

variable {κ : Type} [DecidableEq κ]

/-- The members after writing `value` under `name`: an earlier value of that name is replaced in
its place, and a new name goes to the end. -/
def put (members : List (κ × Json)) (name : κ) (value : Json) : List (κ × Json) :=
  match members with
  | [] => [(name, value)]
  | (n, v) :: rest => if n = name then (n, value) :: rest else (n, v) :: put rest name value

/-- The value stored under a name. -/
def find? (members : List (κ × Json)) (name : κ) : Option Json :=
  match members with
  | [] => none
  | (n, v) :: rest => if n = name then some v else find? rest name

/-- The member of an object, if the document is an object and has it. -/
def get? (name : String) : Json → Option Json
  | .obj members => find? members (.text name)
  | _ => none

/-- Members of which all names are texts. -/
def named (members : List (String × Json)) : List (Literal × Json) :=
  members.map fun (name, value) => (.text name, value)

theorem find?_named (members : List (String × Json)) (name : String) :
    find? (named members) (.text name) = find? members name := by
  induction members with
  | nil => rfl
  | cons m rest ih =>
      rw [named] at ih
      by_cases h : m.1 = name <;> simp [named, find?, h, ih]

theorem find?_put_self (members : List (κ × Json)) (name : κ) (value : Json) :
    find? (put members name value) name = some value := by
  induction members with
  | nil => simp [put, find?]
  | cons m rest ih => by_cases h : m.1 = name <;> simp [put, find?, h, ih]

theorem find?_put_of_ne (members : List (κ × Json)) {name other : κ} (value : Json)
    (h : other ≠ name) : find? (put members name value) other = find? members other := by
  induction members with
  | nil => simp [put, find?, Ne.symm h]
  | cons m rest ih =>
      obtain ⟨n, v⟩ := m
      by_cases hn : n = name
      · subst hn
        simp [put, find?, Ne.symm h]
      · simp [put, find?, hn, ih]

end Json

end Tighten
