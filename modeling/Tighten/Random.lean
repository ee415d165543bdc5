/-
Sources of random numbers.

What a campaign needs of chance is three things: a whole number between two bounds, an element of a
list, and a list in another order.  A source offers them in terms of a state that it passes along.
Nothing is assumed of a source beyond its being lawful: numbers lie between the bounds, an index
points into the list, and a shuffled list is a permutation of the list it was made from.
-/
namespace Tighten

/-- A range of whole numbers that holds none. -/
structure EmptyRange where
  low : Int
  high : Int
deriving DecidableEq, Repr

/-- The range from its first number to the one past its last, and its width. -/
def EmptyRange.message (e : EmptyRange) : String :=
  s!"empty range for randrange() ({e.low}, {e.high + 1}, {e.high + 1 - e.low})"

/-- A source of random numbers with states in `ρ`. -/
structure RandomSource (ρ : Type) where
  /-- A whole number between two bounds, both included, the first of which is not the larger. -/
  between : (low high : Int) → ρ → Int × ρ
  /-- An index into a list of this positive length. -/
  index : (length : Nat) → ρ → Nat × ρ
  /-- The list in another order. -/
  shuffle : {α : Type} → List α → ρ → List α × ρ

/-- A source that keeps what it promises. -/
structure RandomSource.Lawful {ρ : Type} (source : RandomSource ρ) : Prop where
  low_le_between : ∀ low high s, low ≤ high → low ≤ (source.between low high s).1
  between_le_high : ∀ low high s, low ≤ high → (source.between low high s).1 ≤ high
  index_lt : ∀ length s, 0 < length → (source.index length s).1 < length
  shuffle_perm : ∀ {α : Type} (xs : List α) s, (source.shuffle xs s).1.Perm xs

/-- A whole number between two bounds, if there is one. -/
def RandomSource.integer {ρ : Type} (source : RandomSource ρ) (low high : Int) (s : ρ) :
    Except EmptyRange Int × ρ :=
  if high < low then (.error ⟨low, high⟩, s)
  else
    let (n, s) := source.between low high s
    (.ok n, s)

end Tighten
