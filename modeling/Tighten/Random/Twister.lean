import Tighten.Random

/-
The Mersenne twister.

The generator keeps 624 words of 32 bits.  A fresh batch of words is made when the old one is used
up, and each word is tempered on its way out.  A seed of any size is cut into words, least
significant first, and mixed into the initial state.

Numbers below a bound are drawn by rejection: as many bits as the bound has, again and again until
the value is below it.  Each draw succeeds with probability above one half, so the bound on the
number of draws is never met in practice; past it the remainder is taken, which keeps the promise
of a value below the bound.
-/
namespace Tighten

/-- The state of the generator. -/
structure Twister where
  words : Array UInt32
  /-- How many of the words have been given out. -/
  used : Nat
deriving Repr

namespace Twister

/-- The number of words of the state. -/
def size : Nat := 624

/-- The distance between the words that are combined. -/
def shift : Nat := 397

/-- A word of the state. -/
def word (words : Array UInt32) (i : Nat) : UInt32 := words.getD i 0

/-! ### Seeding -/

/-- The state that a single word gives. -/
def ofWord (seed : UInt32) : Array UInt32 :=
  (List.range (size - 1)).foldl (fun ws i =>
    let prev := word ws i
    ws.push ((1812433253 : UInt32) * (prev ^^^ (prev >>> 30)) + UInt32.ofNat (i + 1))) #[seed]

/-- The words of a number, least significant first; `fuel` bounds their count. -/
def wordsOf : (fuel : Nat) → Nat → List UInt32
  | 0, _ => []
  | fuel + 1, n =>
    let low := UInt32.ofNat (n % Nat.pow 2 32)
    if n < Nat.pow 2 32 then [low] else low :: wordsOf fuel (n / Nat.pow 2 32)

/-- The index after `i`, going round past the last word; the first word is then the last one's
copy. -/
def advance (ws : Array UInt32) (i : Nat) : Array UInt32 × Nat :=
  if size ≤ i + 1 then (ws.setIfInBounds 0 (word ws (size - 1)), 1) else (ws, i + 1)

/-- The word before `i`, scrambled. -/
def scrambled (ws : Array UInt32) (i : Nat) : UInt32 :=
  let prev := word ws (i - 1)
  prev ^^^ (prev >>> 30)

/-- One round of mixing the key in, at word `i` of the state and word `j` of the key. -/
def mixKey (key : Array UInt32) (ws : Array UInt32) (i j : Nat) : Array UInt32 :=
  ws.setIfInBounds i
    ((word ws i ^^^ (scrambled ws i * 1664525)) + word key j + UInt32.ofNat j)

/-- All rounds of mixing the key in. -/
def mixKeys (key : Array UInt32) :
    (rounds i j : Nat) → Array UInt32 → Array UInt32 × Nat
  | 0, i, _, ws => (ws, i)
  | rounds + 1, i, j, ws =>
    let (ws, i') := advance (mixKey key ws i j) i
    mixKeys key rounds i' (if key.size ≤ j + 1 then 0 else j + 1) ws

/-- The rounds that spread the key over the state. -/
def spread : (rounds i : Nat) → Array UInt32 → Array UInt32
  | 0, _, ws => ws
  | rounds + 1, i, ws =>
    let ws := ws.setIfInBounds i
      ((word ws i ^^^ (scrambled ws i * 1566083941)) - UInt32.ofNat i)
    let (ws, i') := advance ws i
    spread rounds i' ws

/-- The generator for a seed; a negative seed gives the same one as its opposite. -/
def ofSeed (seed : Int) : Twister :=
  let key := (wordsOf (seed.natAbs.log2 / 32 + 1) seed.natAbs).toArray
  let (ws, i) := mixKeys key (max size key.size) 1 0 (ofWord 19650218)
  let ws := spread (size - 1) i ws
  ⟨ws.setIfInBounds 0 0x80000000, size⟩

/-! ### Output -/

/-- The word that replaces word `i`. -/
def twisted (ws : Array UInt32) (i : Nat) : UInt32 :=
  let y := (word ws i &&& 0x80000000) ||| (word ws ((i + 1) % size) &&& 0x7FFFFFFF)
  let odd : UInt32 := if y &&& 1 = 0 then 0 else 0x9908B0DF
  word ws ((i + shift) % size) ^^^ (y >>> 1) ^^^ odd

/-- A fresh batch of words. -/
def refill (ws : Array UInt32) : Array UInt32 :=
  (List.range size).foldl (fun ws i => ws.setIfInBounds i (twisted ws i)) ws

/-- A word on its way out. -/
def temper (y : UInt32) : UInt32 :=
  let y := y ^^^ (y >>> 11)
  let y := y ^^^ ((y <<< 7) &&& 0x9D2C5680)
  let y := y ^^^ ((y <<< 15) &&& 0xEFC60000)
  y ^^^ (y >>> 18)

/-- The next 32 random bits. -/
def next (t : Twister) : UInt32 × Twister :=
  let t := if size ≤ t.used then ⟨refill t.words, 0⟩ else t
  (temper (word t.words t.used), { t with used := t.used + 1 })

/-- That many random bits, as a number: words from the least significant on, of the last of which
only the high bits are used. -/
def bits (t : Twister) (count : Nat) : Nat × Twister :=
  let whole := count / 32
  let left := count % 32
  let (low, t) := (List.range whole).foldl (fun (n, t) i =>
    let (w, t) := next t
    (n + w.toNat * Nat.pow 2 (32 * i), t)) (0, t)
  if left = 0 then (low, t)
  else
    let (w, t) := next t
    (low + w.toNat / Nat.pow 2 (32 - left) * Nat.pow 2 (32 * whole), t)

/-- Draws until the value is below the bound, `fuel` times at most. -/
def draw (bound width : Nat) : (fuel : Nat) → Twister → Nat × Twister
  | 0, t =>
    let (n, t) := t.bits width
    (n % bound, t)
  | fuel + 1, t =>
    let (n, t) := t.bits width
    if n < bound then (n, t) else draw bound width fuel t

/-- A number below a positive bound. -/
def below (bound : Nat) (t : Twister) : Nat × Twister :=
  if bound = 0 then (0, t) else draw bound (bound.log2 + 1) 4096 t

/-- Exchanges each element, from the last on, with one that is not after it. -/
def shuffleArray {α : Type} : (last : Nat) → Array α → Twister → Array α × Twister
  | 0, xs, t => (xs, t)
  | i + 1, xs, t =>
    let (j, t) := below (i + 2) t
    shuffleArray i (xs.swapIfInBounds (i + 1) j) t

/-- The generator as a source of random numbers. -/
def source : RandomSource Twister where
  between low high t :=
    let (n, t) := below (high - low + 1).toNat t
    (low + n, t)
  index length t := below length t
  shuffle xs t :=
    let (ys, t) := shuffleArray (xs.length - 1) xs.toArray t
    (ys.toList, t)

end Twister

end Tighten
