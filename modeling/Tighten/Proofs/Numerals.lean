import Mathlib.Data.List.TakeWhile
import Tighten.Json.Reader
import Tighten.Json.Writer
import Tighten.Proofs.JsonReading
import Tighten.Proofs.Shortest

/-
Numbers that are read as they were written.

A number ends where neither a digit, nor a point, nor an exponent follows.  Up to there a whole
number is written with the digits that are read, and a double with a decimal that rounds to it,
whichever of the notations it is written in.
-/
namespace Tighten.Json

/-! ### Digits -/

/-- All of them are digits. -/
def Digits (ds : List Char) : Prop :=
  ∀ c ∈ ds, c.isDigit = true

/-- No digit comes next. -/
def NoDigit (rest : List Char) : Prop :=
  ∀ c ∈ rest.head?, c.isDigit = false

theorem spanDigits_append {ds rest : List Char} (hds : Digits ds) (hrest : NoDigit rest) :
    spanDigits (ds ++ rest) = (ds, rest) := by
  unfold spanDigits
  rw [List.span_eq_takeWhile_dropWhile, List.takeWhile_append_of_pos hds,
    List.dropWhile_append_of_pos hds]
  cases rest with
  | nil => simp
  | cons c rest =>
      have hc : c.isDigit = false := hrest c rfl
      simp [hc]

theorem digitsValue_append (ds es : List Char) :
    digitsValue (ds ++ es) = digitsValue ds * 10 ^ es.length + digitsValue es := by
  induction es using List.reverseRecOn with
  | nil => simp [digitsValue]
  | append_singleton es c ih =>
      have hlast : ∀ front : List Char,
          digitsValue (front ++ [c]) = digitsValue front * 10 + (c.toNat - 48) := by
        intro front
        simp [digitsValue]
      rw [← List.append_assoc, hlast, hlast, ih, List.length_append, List.length_singleton,
        Nat.pow_succ]
      ring

theorem digitsValue_zeros (k : Nat) : digitsValue (List.replicate k '0') = 0 := by
  induction k with
  | zero => rfl
  | succ k ih =>
      rw [List.replicate_succ', digitsValue_append, ih]
      rfl

theorem digits_toDigits (n : Nat) : Digits (Nat.toDigits 10 n) := by
  intro c hc
  exact Nat.isDigit_of_mem_toDigits (by decide) (by decide) hc

theorem digitsValue_toDigits (n : Nat) : digitsValue (Nat.toDigits 10 n) = n := by
  have hfold : ∀ ds : List Char, digitsValue ds = Nat.ofDigitChars 10 ds 0 := by
    intro ds
    rw [Nat.ofDigitChars_eq_foldl]
    unfold digitsValue
    congr 1
    funext m c
    rw [Nat.mul_comm]
    rfl
  rw [hfold, Nat.ofDigitChars_toDigits (by decide) (by decide)]

/-- A number above zero does not begin with one. -/
theorem head?_toDigits {n : Nat} (h : 0 < n) : (Nat.toDigits 10 n).head? ≠ some '0' := by
  induction n using Nat.strong_induction_on with
  | _ n ih =>
      rw [Nat.toDigits_eq_if (by decide)]
      split
      · next hlt =>
          have hne : ∀ m < 10, 0 < m → m.digitChar ≠ '0' := by decide
          simpa using hne n hlt h
      · next hge =>
          rw [List.head?_append_of_ne_nil _ Nat.toDigits_ne_nil]
          exact ih (n / 10) (by omega) (by omega)

theorem wholePart_append {ds rest : List Char} (hne : ds ≠ []) (hhead : ds.head? ≠ some '0')
    (hds : Digits ds) (hrest : NoDigit rest) : wholePart (ds ++ rest) = some (ds, rest) := by
  cases ds with
  | nil => exact absurd rfl hne
  | cons c ds =>
      have hc : c ≠ '0' := by simpa using hhead
      have hdigit : c.isDigit = true := hds c List.mem_cons_self
      rw [List.cons_append]
      unfold wholePart
      split
      · next heq => exact absurd (List.cons.inj heq).1 hc
      · next heq =>
          obtain ⟨rfl, rfl⟩ := List.cons.inj heq
          rw [if_pos hdigit, ← List.cons_append, spanDigits_append hds hrest]
      · next heq => cases heq

theorem wholePart_zero (rest : List Char) : wholePart ('0' :: rest) = some (['0'], rest) :=
  rfl

/-! ### The parts of a number -/

/-- Nothing comes next that could be read as a part of a number. -/
def EndsNumber (rest : List Char) : Prop :=
  ∀ c ∈ rest.head?, c.isDigit = false ∧ c ≠ '.' ∧ c ≠ 'e' ∧ c ≠ 'E'

theorem EndsNumber.noDigit {rest : List Char} (h : EndsNumber rest) : NoDigit rest := by
  intro c hc
  exact (h c hc).1

theorem EndsNumber.fraction {rest : List Char} (h : EndsNumber rest) :
    Json.fraction rest = none := by
  unfold Json.fraction
  split
  · next c rest => exact absurd rfl (h '.' rfl).2.1
  · rfl

theorem EndsNumber.exponent {rest : List Char} (h : EndsNumber rest) :
    Json.exponent rest = none := by
  unfold Json.exponent
  split
  · next c rest =>
      obtain ⟨-, -, he, hE⟩ := h c rfl
      simp [he, hE]
  · rfl

theorem fraction_append {ds rest : List Char} (hne : ds ≠ []) (hds : Digits ds)
    (hrest : NoDigit rest) : fraction ('.' :: (ds ++ rest)) = some (ds, rest) := by
  cases ds with
  | nil => exact absurd rfl hne
  | cons c ds =>
      have hc : c.isDigit = true := hds c List.mem_cons_self
      simp only [List.cons_append, fraction, hc, if_true]
      rw [← List.cons_append, spanDigits_append hds hrest]

/-- The sign of an exponent. -/
def signOf (negative : Bool) : Char :=
  if negative then '-' else '+'

theorem exponent_append {es rest : List Char} (negative : Bool) (hne : es ≠ []) (hes : Digits es)
    (hrest : NoDigit rest) :
    exponent ('e' :: signOf negative :: (es ++ rest)) =
      some (if negative then -(digitsValue es : Int) else digitsValue es, rest) := by
  have hdigits : ∀ b, exponentDigits b (es ++ rest) =
      some (if b then -(digitsValue es : Int) else digitsValue es, rest) := by
    intro b
    unfold exponentDigits
    rw [spanDigits_append hes hrest]
    cases es with
    | nil => exact absurd rfl hne
    | cons c es => rfl
  cases negative with
  | true => exact hdigits true
  | false => exact hdigits false

/-! ### Whole numbers -/

variable {negative : Bool} {start text whole rest : List Char}

theorem magnitude_int (hwhole : wholePart text = some (whole, rest)) (hrest : EndsNumber rest)
    (hlength : whole.length ≤ maxDigits) :
    magnitude negative start text =
      .ok (.int (if negative then -(digitsValue whole : Int) else digitsValue whole), rest) := by
  unfold magnitude
  simp only [hwhole, hrest.fraction, hrest.exponent, Option.isNone_none, Bool.and_self, if_true]
  rw [if_neg (by omega)]

theorem wholePart_toDigits (n : Nat) (hrest : NoDigit rest) :
    wholePart (Nat.toDigits 10 n ++ rest) = some (Nat.toDigits 10 n, rest) := by
  by_cases hn : n = 0
  · rw [hn]
    rfl
  · exact wholePart_append Nat.toDigits_ne_nil (head?_toDigits (by omega)) (digits_toDigits n) hrest

/-! ### Doubles -/

theorem magnitude_fraction {ds after : List Char} (hwhole : wholePart text = some (whole, after))
    (hfraction : fraction after = some (ds, rest)) (hrest : EndsNumber rest) :
    magnitude negative start text =
      .ok (.double (Double.ofDecimal negative (digitsValue (whole ++ ds)) (-ds.length)), rest) := by
  unfold magnitude
  simp [hwhole, hfraction, hrest.exponent]

theorem magnitude_exponent {after : List Char} {x : Int}
    (hwhole : wholePart text = some (whole, after)) (hfraction : fraction after = none)
    (hexponent : exponent after = some (x, rest)) :
    magnitude negative start text =
      .ok (.double (Double.ofDecimal negative (digitsValue whole) x), rest) := by
  unfold magnitude
  simp [hwhole, hfraction, hexponent]

theorem magnitude_scientific {ds after left : List Char} {x : Int}
    (hwhole : wholePart text = some (whole, after)) (hfraction : fraction after = some (ds, left))
    (hexponent : exponent left = some (x, rest)) :
    magnitude negative start text =
      .ok (.double (Double.ofDecimal negative (digitsValue (whole ++ ds)) (x - ds.length)),
        rest) := by
  unfold magnitude
  simp [hwhole, hfraction, hexponent]

/-- Wherever a number ends, the text is read as a decimal of this value. -/
def ReadsAs (text : List Char) (value : ℚ) : Prop :=
  ∀ rest, EndsNumber rest → ∀ negative start, ∃ (mantissa : Nat) (exponent : Int),
    0 < mantissa ∧ (mantissa : ℚ) * 10 ^ exponent = value ∧
    magnitude negative start (text ++ rest) =
      .ok (.double (Double.ofDecimal negative mantissa exponent), rest)

/-- Digits that make a whole part. -/
def Leads (whole : List Char) : Prop :=
  ∀ rest, NoDigit rest → wholePart (whole ++ rest) = some (whole, rest)

theorem noDigit_cons {c : Char} {rest : List Char} (hc : c.isDigit = false) :
    NoDigit (c :: rest) := by
  intro d hd
  obtain rfl : c = d := by simpa using hd
  exact hc

theorem readsAs_point {frac : List Char} (hwhole : Leads whole) (hfrac : Digits frac)
    (hne : frac ≠ []) (hpos : 0 < digitsValue (whole ++ frac)) :
    ReadsAs (whole ++ '.' :: frac) (digitsValue (whole ++ frac) * 10 ^ (-(frac.length : Int))) := by
  intro rest hrest negative start
  refine ⟨_, _, hpos, rfl, ?_⟩
  rw [List.append_assoc, List.cons_append]
  exact magnitude_fraction (hwhole _ (noDigit_cons rfl)) (fraction_append hne hfrac hrest.noDigit)
    hrest

theorem readsAs_exponent {es : List Char} {negative : Bool} (hwhole : Leads whole) (hes : Digits es)
    (hne : es ≠ []) (hpos : 0 < digitsValue whole) :
    ReadsAs (whole ++ 'e' :: signOf negative :: es)
      (digitsValue whole *
        10 ^ (if negative then -(digitsValue es : Int) else digitsValue es)) := by
  intro rest hrest negative' start
  refine ⟨_, _, hpos, rfl, ?_⟩
  rw [List.append_assoc, List.cons_append, List.cons_append]
  refine magnitude_exponent (hwhole _ (noDigit_cons rfl)) ?_
    (exponent_append negative hne hes hrest.noDigit)
  rfl

theorem readsAs_point_exponent {frac es : List Char} {negative : Bool} (hwhole : Leads whole)
    (hfrac : Digits frac) (hfrac' : frac ≠ []) (hes : Digits es) (hes' : es ≠ [])
    (hpos : 0 < digitsValue (whole ++ frac)) :
    ReadsAs (whole ++ '.' :: frac ++ 'e' :: signOf negative :: es)
      (digitsValue (whole ++ frac) *
        10 ^ ((if negative then -(digitsValue es : Int) else digitsValue es) - frac.length)) := by
  intro rest hrest negative' start
  refine ⟨_, _, hpos, rfl, ?_⟩
  simp only [List.append_assoc, List.cons_append]
  exact magnitude_scientific (hwhole _ (noDigit_cons rfl))
    (fraction_append hfrac' hfrac (noDigit_cons rfl))
    (exponent_append negative hes' hes hrest.noDigit)

theorem Digits.append {ds es : List Char} (hds : Digits ds) (hes : Digits es) :
    Digits (ds ++ es) := by
  intro c hc
  obtain h | h := List.mem_append.mp hc
  · exact hds c h
  · exact hes c h

theorem digits_zeros (k : Nat) : Digits (List.replicate k '0') := by
  intro c hc
  rw [(List.mem_replicate.mp hc).2]
  rfl

theorem leads_of_head {ds : List Char} (hds : Digits ds) (hne : ds ≠ [])
    (hhead : ds.head? ≠ some '0') : Leads ds := by
  intro rest hrest
  exact wholePart_append hne hhead hds hrest

/-- The digits of a number above zero. -/
structure Significant (n : Nat) (ds : List Char) : Prop where
  digits : Digits ds
  ne_nil : ds ≠ []
  head : ds.head? ≠ some '0'
  value : digitsValue ds = n

theorem significant_toDigits {n : Nat} (h : 0 < n) : Significant n (Nat.toDigits 10 n) :=
  ⟨digits_toDigits n, Nat.toDigits_ne_nil, head?_toDigits h, digitsValue_toDigits n⟩

theorem leads_zero : Leads ['0'] := by
  intro rest _
  rfl

/-- A number below one has zeros before its digits. -/
theorem readsAs_below {n : Nat} {ds : List Char} (hn : 0 < n) (h : Significant n ds) (k : Nat) :
    ReadsAs (['0', '.'] ++ List.replicate k '0' ++ ds) (n * 10 ^ (-(k : Int) - ds.length)) := by
  have hvalue : digitsValue (['0'] ++ (List.replicate k '0' ++ ds)) = n := by
    rw [digitsValue_append, digitsValue_append, digitsValue_zeros, h.value]
    simp [digitsValue]
  have hread := readsAs_point leads_zero ((digits_zeros k).append h.digits) (by simp [h.ne_nil])
    (by rwa [hvalue])
  rw [hvalue] at hread
  simpa [neg_add', sub_eq_add_neg, add_comm] using hread

/-- A whole number may have zeros after its digits, and it has one after the point. -/
theorem readsAs_above {n : Nat} {ds : List Char} (hn : 0 < n) (h : Significant n ds) (k : Nat) :
    ReadsAs (ds ++ List.replicate k '0' ++ ['.', '0']) (n * 10 ^ (k : Int)) := by
  have hvalue : digitsValue (ds ++ List.replicate k '0' ++ ['0']) = n * 10 ^ (k + 1) := by
    rw [digitsValue_append, digitsValue_append, digitsValue_zeros, h.value, Nat.pow_succ]
    simp [digitsValue, Nat.mul_assoc]
  have hleads : Leads (ds ++ List.replicate k '0') := by
    apply leads_of_head (h.digits.append (digits_zeros k)) (by simp [h.ne_nil])
    rw [List.head?_append_of_ne_nil _ h.ne_nil]
    exact h.head
  have hread := readsAs_point hleads (digits_zeros 1) (List.cons_ne_nil _ _) (by
    show 0 < digitsValue (ds ++ List.replicate k '0' ++ ['0'])
    rw [hvalue]
    exact Nat.mul_pos hn (Nat.pow_pos (by decide)))
  have hrat : ((n * 10 ^ (k + 1) : Nat) : ℚ) * 10 ^ (-(1 : Int)) = n * 10 ^ (k : Int) := by
    push_cast
    rw [zpow_natCast, zpow_neg_one, pow_succ]
    field_simp
  rw [← hrat, ← hvalue]
  exact hread

theorem Digits.mono {ds es : List Char} (hds : Digits ds) (hsub : es ⊆ ds) : Digits es := by
  intro c hc
  exact hds c (hsub hc)

/-- The point may stand among the digits. -/
theorem readsAs_between {n p : Nat} {ds : List Char} (hn : 0 < n) (h : Significant n ds)
    (hp : 0 < p) (hlt : p < ds.length) :
    ReadsAs (ds.take p ++ ['.'] ++ ds.drop p) (n * 10 ^ ((p : Int) - ds.length)) := by
  have hvalue : digitsValue (ds.take p ++ ds.drop p) = n := by
    rw [List.take_append_drop, h.value]
  have hleads : Leads (ds.take p) := by
    apply leads_of_head (h.digits.mono (List.take_subset p ds))
    · simp [h.ne_nil, Nat.ne_of_gt hp]
    · rw [List.head?_take, if_neg (Nat.ne_of_gt hp)]
      exact h.head
  have hread := readsAs_point hleads (h.digits.mono (List.drop_subset p ds))
    (by simp [Nat.not_le_of_lt hlt]) (by rwa [hvalue])
  rw [hvalue, List.length_drop,
    show -((ds.length - p : Nat) : Int) = (p : Int) - ds.length by omega] at hread
  rw [List.append_assoc]
  exact hread

/-- Without an exponent there may be zeros before the digits or after them. -/
theorem readsAs_positional {n : Nat} {ds : List Char} (hn : 0 < n) (h : Significant n ds)
    (point : Int) :
    ReadsAs (Double.positional ds point) (n * 10 ^ (point - ds.length)) := by
  unfold Double.positional
  split
  · next hpoint =>
      have hread := readsAs_below hn h (-point).toNat
      rwa [show -((-point).toNat : Int) - ds.length = point - ds.length by omega] at hread
  · split
    · next hpoint hlength =>
        have hread := readsAs_above hn h (point.toNat - ds.length)
        rwa [show ((point.toNat - ds.length : Nat) : Int) = point - ds.length by omega] at hread
    · next hpoint hlength =>
        have hread := @readsAs_between n point.toNat ds hn h (by omega) (by omega)
        rwa [show (point.toNat : Int) - ds.length = point - ds.length by omega] at hread

/-- An exponent is written with its sign and at least so many digits. -/
theorem exponent_digits (width : Nat) (x : Int) :
    Digits (List.replicate width '0' ++ Nat.toDigits 10 x.natAbs) ∧
      (if decide (x < 0) then
        -(digitsValue (List.replicate width '0' ++ Nat.toDigits 10 x.natAbs) : Int)
      else digitsValue (List.replicate width '0' ++ Nat.toDigits 10 x.natAbs)) = x := by
  refine ⟨(digits_zeros width).append (digits_toDigits _), ?_⟩
  rw [digitsValue_append, digitsValue_zeros, digitsValue_toDigits]
  by_cases hx : x < 0
  · simp only [hx, decide_true, if_true]
    omega
  · simp only [hx, decide_false, Bool.false_eq_true, if_false]
    omega

/-- With an exponent there is one digit before the point, and no point if it is the only one. -/
theorem readsAs_scientific {n : Nat} {ds : List Char} (style : Double.Style) (hn : 0 < n)
    (h : Significant n ds) (x : Int) :
    ReadsAs (Double.scientific style ds x) (n * 10 ^ (x + 1 - ds.length)) := by
  have hleads : Leads (ds.take 1) := by
    apply leads_of_head (h.digits.mono (List.take_subset 1 ds))
    · simp [h.ne_nil]
    · rw [List.head?_take, if_neg Nat.one_ne_zero]
      exact h.head
  have hvalue : digitsValue (ds.take 1 ++ ds.drop 1) = n := by
    rw [List.take_append_drop, h.value]
  have hlength : 0 < ds.length := List.length_pos_of_ne_nil h.ne_nil
  obtain ⟨hes, hexponent⟩ := exponent_digits
    (style.exponentWidth - (Nat.toDigits 10 x.natAbs).length) x
  have hes' : List.replicate (style.exponentWidth - (Nat.toDigits 10 x.natAbs).length) '0' ++
      Nat.toDigits 10 x.natAbs ≠ [] := by
    simp [Nat.toDigits_ne_nil]
  have hsign : (if x < 0 then '-' else '+') = signOf (decide (x < 0)) := by
    simp [signOf]
  unfold Double.scientific Double.digitsOf
  rw [hsign]
  cases hdrop : ds.drop 1 with
  | nil =>
      have hone : ds.length = 1 := by
        have hle := List.drop_eq_nil_iff.mp hdrop
        omega
      rw [hdrop, List.append_nil] at hvalue
      have hread := @readsAs_exponent (ds.take 1) _ (decide (x < 0)) hleads hes hes'
        (by rwa [hvalue])
      rw [hexponent, hvalue] at hread
      simpa [hone] using hread
  | cons d rest =>
      have hfrac : Digits (ds.drop 1) := h.digits.mono (List.drop_subset 1 ds)
      have hread := @readsAs_point_exponent (ds.take 1) (ds.drop 1) _ (decide (x < 0)) hleads
        hfrac (by simp [hdrop]) hes hes' (by rwa [hvalue])
      rw [hexponent, hvalue, List.length_drop,
        show x - ((ds.length - 1 : Nat) : Int) = x + 1 - ds.length by omega, hdrop] at hread
      simpa using hread

/-! ### Words and signs -/

/-- The words that stand for a value. -/
def words : List (String × Json) :=
  [("null", .null), ("true", .bool true), ("false", .bool false), ("NaN", .double .undefined),
    ("Infinity", .double (.infinite false)), ("-Infinity", .double (.infinite true))]

/-- What a word at the front of a text stands for. -/
def wordAt (text : List Char) : Option (Json × List Char) :=
  words.findSome? fun w => (afterWord? w.1 text).map fun r => (w.2, r)

theorem scalar_eq (text : List Char) :
    scalar text =
      match wordAt text with
      | some found => .ok found
      | none =>
        match text with
        | '-' :: rest => magnitude true text rest
        | _ => magnitude false text text :=
  rfl

theorem words_noDigit {w : String × Json} (h : w ∈ words) :
    2 ≤ w.1.toList.length ∧ ∀ c ∈ w.1.toList, c.isDigit = false := by
  have hall : (words.all fun w =>
      decide (2 ≤ w.1.toList.length) && w.1.toList.all fun c => !c.isDigit) = true := by
    decide +kernel
  have hword := List.all_eq_true.mp hall w h
  simpa using hword

/-- A digit among the first two characters is part of no word. -/
theorem wordAt_eq_none {c : Char} (hc : c.isDigit = true) (hmem : c ∈ text.take 2) :
    wordAt text = none := by
  unfold wordAt
  rw [List.findSome?_eq_none_iff]
  intro w hw
  have hnone : afterWord? w.1 text = none := by
    unfold afterWord?
    rw [if_neg]
    intro hfront
    obtain ⟨hlength, hdigits⟩ := words_noDigit hw
    obtain ⟨rest, rfl⟩ := List.isPrefixOf_iff_prefix.mp hfront
    rw [List.take_append_of_le_length hlength] at hmem
    rw [hdigits c (List.mem_of_mem_take hmem)] at hc
    cases hc
  rw [hnone]
  rfl

theorem scalar_digit {c : Char} (hc : c.isDigit = true) (rest : List Char) :
    scalar (c :: rest) = magnitude false (c :: rest) (c :: rest) := by
  rw [scalar_eq, wordAt_eq_none hc (by simp)]
  dsimp only
  split
  · next heq =>
      obtain ⟨rfl, -⟩ := List.cons.inj heq
      cases hc
  · rfl

theorem scalar_minus {c : Char} (hc : c.isDigit = true) (rest : List Char) :
    scalar ('-' :: c :: rest) = magnitude true ('-' :: c :: rest) (c :: rest) := by
  rw [scalar_eq, wordAt_eq_none hc (by simp)]
  rfl

theorem exists_digit_of_wholePart (h : wholePart text ≠ none) :
    ∃ c rest, text = c :: rest ∧ c.isDigit = true := by
  unfold wholePart at h
  split at h
  · exact ⟨'0', _, rfl, rfl⟩
  · next c rest _ =>
      split at h
      · next hc => exact ⟨c, rest, rfl, hc⟩
      · exact absurd rfl h
  · exact absurd rfl h

/-- What is read after the sign is read with it. -/
theorem scalar_of_magnitude {r : Json × List Char} (negative : Bool)
    (h : ∀ start, magnitude negative start text = .ok r) :
    scalar ((if negative then ['-'] else []) ++ text) = .ok r := by
  have hwhole : wholePart text ≠ none := by
    intro hnone
    have hread := h text
    unfold magnitude at hread
    rw [hnone] at hread
    cases hread
  obtain ⟨c, rest, rfl, hc⟩ := exists_digit_of_wholePart hwhole
  cases negative with
  | true => exact (scalar_minus hc rest).trans (h _)
  | false => exact (scalar_digit hc rest).trans (h _)

/-! ### Reading what was written -/

/-- The text of a whole number: its sign and its digits. -/
theorem toList_toString (n : Int) :
    (toString n).toList = (if decide (n < 0) then ['-'] else []) ++ Nat.toDigits 10 n.natAbs := by
  show n.repr.toList = _
  rw [Int.repr_eq_if]
  by_cases hn : n < 0
  · rw [if_neg (by omega), String.toList_append, Nat.toList_repr,
      show (-n).toNat = n.natAbs by omega]
    simp [hn]
  · rw [if_pos (by omega), Nat.toList_repr, show n.toNat = n.natAbs by omega]
    simp [hn]

/-- A whole number that is not too long is read as it was written. -/
theorem scalar_toString {n : Int} (hn : n.natAbs < 10 ^ maxDigits) (hrest : EndsNumber rest) :
    scalar ((toString n).toList ++ rest) = .ok (.int n, rest) := by
  have hlength : (Nat.toDigits 10 n.natAbs).length ≤ maxDigits :=
    (Nat.length_toDigits_le_iff (by decide) (by decide)).mpr hn
  rw [toList_toString, List.append_assoc]
  apply scalar_of_magnitude
  intro start
  rw [magnitude_int (wholePart_toDigits _ hrest.noDigit) hrest hlength, digitsValue_toDigits]
  by_cases hneg : n < 0
  · simp only [hneg, decide_true, if_true]
    rw [show -(n.natAbs : Int) = n by omega]
  · simp only [hneg, decide_false, Bool.false_eq_true, if_false]
    rw [show (n.natAbs : Int) = n by omega]

end Tighten.Json

namespace Tighten

/-- A double that the format has, in its normal form. -/
def Double.Proper : Double → Prop
  | .finite _ m e => Double.Normal m e ∨ m = 0 ∧ e = Double.minExponent
  | .infinite _ => True
  | .undefined => True

namespace Json

/-- The digits of a finite number above zero, in either notation. -/
theorem readsAs_shortest {m : Nat} {e : Int} (h : Double.Normal m e) :
    ∃ value, Double.RoundsTo m e value ∧
      ReadsAs
        (if Double.plainStyle.leastPositional ≤ (Double.shortest m e).point - 1 ∧
            (Double.shortest m e).point - 1 < Double.plainStyle.firstScientific then
          Double.positional (Double.digitsOf (Double.shortest m e).digits)
            (Double.shortest m e).point
        else
          Double.scientific Double.plainStyle (Double.digitsOf (Double.shortest m e).digits)
            ((Double.shortest m e).point - 1)) value := by
  obtain ⟨hpos, hrounds⟩ := Double.shortest_roundsTo h
  refine ⟨_, hrounds, ?_⟩
  have hdigits := significant_toDigits hpos
  split
  · exact readsAs_positional hpos hdigits _
  · have hread := readsAs_scientific Double.plainStyle hpos hdigits
      ((Double.shortest m e).point - 1)
    rwa [Int.sub_add_cancel] at hread

/-- What is read as a decimal that rounds to a double is read as that double. -/
theorem ReadsAs.scalar {text rest : List Char} {value : ℚ} {m : Nat} {e : Int}
    (h : ReadsAs text value) (hnormal : Double.Normal m e) (hvalue : Double.RoundsTo m e value)
    (negative : Bool) (hrest : EndsNumber rest) :
    Json.scalar ((if negative then ['-'] else []) ++ (text ++ rest)) =
      .ok (.double (.finite negative m e), rest) := by
  apply scalar_of_magnitude
  intro start
  obtain ⟨mantissa, exponent, hpos, hdecimal, hread⟩ := h rest hrest negative start
  rw [hread, Double.ofDecimal_of_roundsTo hpos hnormal (by rwa [hdecimal])]

theorem scalar_zero (negative : Bool) {rest : List Char} (hrest : EndsNumber rest) :
    scalar ((if negative then ['-'] else []) ++ (['0', '.', '0'] ++ rest)) =
      .ok (.double (Double.zero negative), rest) := by
  apply scalar_of_magnitude
  intro start
  have hfraction : fraction ('.' :: '0' :: rest) = some (['0'], rest) :=
    fraction_append (List.cons_ne_nil '0' []) (digits_zeros 1) hrest.noDigit
  show magnitude negative start ('0' :: '.' :: '0' :: rest) = _
  rw [magnitude_fraction (wholePart_zero _) hfraction hrest]
  rfl

/-- A double is read as it was written. -/
theorem scalar_numberText {x : Double} {rest : List Char} (hx : x.Proper)
    (hrest : EndsNumber rest) :
    scalar ((numberText x).toList ++ rest) = .ok (.double x, rest) := by
  match x with
  | .undefined => rfl
  | .infinite true => rfl
  | .infinite false => rfl
  | .finite negative m e =>
      show scalar ((Double.toText (.finite negative m e)).toList ++ rest) = _
      unfold Double.toText
      rw [String.toList_ofList, List.append_assoc]
      obtain hnormal | ⟨rfl, rfl⟩ := hx
      · obtain ⟨value, hrounds, hread⟩ := readsAs_shortest hnormal
        rw [if_neg (Nat.ne_of_gt hnormal.pos)]
        exact hread.scalar hnormal hrounds negative hrest
      · rw [if_pos rfl]
        exact scalar_zero negative hrest

end Json

end Tighten
