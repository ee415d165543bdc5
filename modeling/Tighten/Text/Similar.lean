/-
How similar two texts are.

The texts are compared by their longest common stretch, then what is left of it in both, then what is
right of it, and so on.  Two texts are close when the characters matched this way are at least three
fifths of all their characters.
-/
namespace Tighten.Text

/-- The length of the common beginning of two texts. -/
def commonStart : List Char → List Char → Nat
  | a :: as, b :: bs => if a = b then commonStart as bs + 1 else 0
  | _, _ => 0

/-- A stretch that two texts have in common: where it begins in each, and its length. -/
structure Stretch where
  first : Nat
  second : Nat
  length : Nat
deriving DecidableEq, Repr

/-- The longest common stretch; of several, the one that begins first in the first text, then in the
second. -/
def longestCommon (a b : List Char) : Stretch :=
  let starts := (List.range a.length).flatMap fun i => (List.range b.length).map fun j => (i, j)
  starts.foldl (fun best (i, j) =>
    let n := commonStart (a.drop i) (b.drop j)
    if best.length < n then ⟨i, j, n⟩ else best) ⟨0, 0, 0⟩

/-- How many characters are matched; `depth` bounds how often the texts are divided. -/
def matchedWithin : (depth : Nat) → List Char → List Char → Nat
  | 0, _, _ => 0
  | depth + 1, a, b =>
    let s := longestCommon a b
    if s.length = 0 then 0
    else
      matchedWithin depth (a.take s.first) (b.take s.second) + s.length +
        matchedWithin depth (a.drop (s.first + s.length)) (b.drop (s.second + s.length))

/-- How many characters of two texts are matched. -/
def matched (a b : List Char) : Nat :=
  matchedWithin a.length a b

/-- Whether two texts are close. -/
def isClose (a b : List Char) : Bool :=
  3 * (a.length + b.length) ≤ 10 * matched a b

/-- The words of a list that are close to a word. -/
def closeWords (word : String) (words : List String) : List String :=
  words.filter fun w => isClose w.toList word.toList

end Tighten.Text
