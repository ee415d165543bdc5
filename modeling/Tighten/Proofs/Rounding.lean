import Mathlib.Algebra.Order.Field.Power
import Mathlib.Data.Rat.Cast.Order
import Mathlib.Tactic.FieldSimp
import Mathlib.Tactic.Linarith
import Mathlib.Tactic.Positivity
import Mathlib.Tactic.Ring
import Tighten.Number.Double

/-
Rounding to the nearest double.

Every rational between the two points halfway to the neighbours of a double rounds to that double;
the points themselves do where the significand is even.  `RoundsTo` says so of a rational, and both
ways into the type, from a quotient and from a decimal, are shown to follow it.

A double in normal form has a significand of 53 bits unless its exponent is the smallest.  So the
neighbour below is half as far away as the one above where the significand is the least of its
exponent, and a quotient that lies between these two is first taken in units of the smaller
exponent.
-/
namespace Tighten.Double

/-! ### Quotients -/

theorem cast_pow_toNat (b : Nat) {k : Int} (h : 0 ≤ k) :
    ((Nat.pow b k.toNat : Nat) : ℚ) = (b : ℚ) ^ k := by
  obtain ⟨n, rfl⟩ := Int.eq_ofNat_of_zero_le h
  simp

theorem cast_pow_neg_toNat (b : Nat) {k : Int} (h : ¬0 ≤ k) :
    ((Nat.pow b (-k).toNat : Nat) : ℚ) = ((b : ℚ) ^ k)⁻¹ := by
  rw [cast_pow_toNat b (by omega), zpow_neg]

/-- The rounded quotient is the whole number at most a half away, and the even one of two. -/
theorem roundDiv_eq {num den k : Nat} (hden : 0 < den) (hlow : 2 * k * den ≤ 2 * num + den)
    (hhigh : 2 * num ≤ (2 * k + 1) * den)
    (hodd : k % 2 = 1 → 2 * k * den < 2 * num + den ∧ 2 * num < (2 * k + 1) * den) :
    roundDiv num den = k := by
  have hdiv : den * (num / den) + num % den = num := Nat.div_add_mod num den
  have hmod : num % den < den := Nat.mod_lt num hden
  have htwice : 2 * k * den = 2 * (den * k) := by ring
  have htwice' : (2 * k + 1) * den = 2 * (den * k) + den := by ring
  rw [htwice, htwice'] at hodd
  rw [htwice] at hlow
  rw [htwice'] at hhigh
  have hle : num / den ≤ k := by
    by_contra hlt
    have hmul : den * (k + 1) ≤ den * (num / den) := Nat.mul_le_mul_left den (by omega)
    rw [Nat.mul_succ] at hmul
    omega
  have hge : k ≤ num / den + 1 := by
    by_contra hlt
    have hmul : den * (num / den + 2) ≤ den * k := Nat.mul_le_mul_left den (by omega)
    rw [Nat.mul_add] at hmul
    omega
  unfold roundDiv
  dsimp only
  by_cases hk : k = num / den
  · rw [← hk] at hdiv ⊢
    by_cases hless : 2 * (num % den) < den
    · rw [if_pos hless]
    · rw [if_neg hless, if_neg (by omega)]
      omega
  · have hk' : k = num / den + 1 := by omega
    have hmul : den * k = den * (num / den) + den := by rw [hk', Nat.mul_succ]
    by_cases hmore : den < 2 * (num % den)
    · rw [if_neg (by omega), if_pos hmore, hk']
    · rw [if_neg (by omega), if_neg hmore]
      omega

/-- The rationals that are rounded to a whole number. -/
structure Nearest (k : Nat) (q : ℚ) : Prop where
  low : (k : ℚ) - 1 / 2 ≤ q
  high : q ≤ k + 1 / 2
  odd : k % 2 = 1 → (k : ℚ) - 1 / 2 < q ∧ q < k + 1 / 2

theorem roundDiv_of_nearest {num den k : Nat} (hden : 0 < den) (h : Nearest k (num / den)) :
    roundDiv num den = k := by
  have hpos : (0 : ℚ) < den := by exact_mod_cast hden
  apply roundDiv_eq hden
  · have hlow := h.low
    rw [le_div_iff₀ hpos] at hlow
    have hcast : (2 * k * den : ℚ) ≤ 2 * num + den := by linarith
    exact_mod_cast hcast
  · have hhigh := h.high
    rw [div_le_iff₀ hpos] at hhigh
    have hcast : (2 * num : ℚ) ≤ (2 * k + 1) * den := by linarith
    exact_mod_cast hcast
  · intro hodd
    obtain ⟨hlow, hhigh⟩ := h.odd hodd
    rw [lt_div_iff₀ hpos] at hlow
    rw [div_lt_iff₀ hpos] at hhigh
    have hcast : (2 * k * den : ℚ) < 2 * num + den := by linarith
    have hcast' : (2 * num : ℚ) < (2 * k + 1) * den := by linarith
    exact ⟨by exact_mod_cast hcast, by exact_mod_cast hcast'⟩

/-- A quotient in units of a power of two is rounded to the nearest of them. -/
theorem inUnits_of_nearest {num den k : Nat} {e : Int} (hden : 0 < den)
    (h : Nearest k ((num : ℚ) / den / 2 ^ e)) : inUnits num den e = k := by
  unfold inUnits
  split
  · next he =>
      refine roundDiv_of_nearest (Nat.mul_pos hden (Nat.two_pow_pos e.toNat)) ?_
      rw [Nat.cast_mul, cast_pow_toNat 2 he, Nat.cast_ofNat, ← div_div]
      exact h
  · next he =>
      refine roundDiv_of_nearest hden ?_
      rw [Nat.cast_mul, cast_pow_neg_toNat 2 he, Nat.cast_ofNat, ← div_eq_mul_inv, div_right_comm]
      exact h

/-! ### Powers of two -/

theorem reaches_iff {num den : Nat} {k : Int} (hden : 0 < den) :
    reaches num den k = true ↔ (2 : ℚ) ^ k ≤ num / den := by
  have hpos : (0 : ℚ) < den := by exact_mod_cast hden
  have htwo : (0 : ℚ) < 2 ^ k := zpow_pos (by norm_num) k
  unfold reaches
  rw [le_div_iff₀ hpos]
  split
  · next hk =>
      rw [decide_eq_true_eq, ← @Nat.cast_le ℚ, Nat.cast_mul, cast_pow_toNat 2 hk, Nat.cast_ofNat,
        mul_comm]
  · next hk =>
      rw [decide_eq_true_eq, ← @Nat.cast_le ℚ, Nat.cast_mul, cast_pow_neg_toNat 2 hk,
        Nat.cast_ofNat, ← div_eq_mul_inv, le_div_iff₀ htwo, mul_comm]

theorem two_pow_log2_le {n : Nat} (h : 0 < n) : (2 : ℚ) ^ (n.log2 : Int) ≤ n := by
  rw [zpow_natCast]
  exact_mod_cast Nat.log2_self_le (by omega)

theorem lt_two_pow_log2 (n : Nat) : (n : ℚ) < 2 ^ ((n.log2 : Int) + 1) := by
  have h : n < 2 ^ (n.log2 + 1) := Nat.lt_log2_self
  exact_mod_cast h

/-- The difference of the binary sizes is the exponent of a quotient, or one more. -/
theorem log2_sub_log2 {num den : Nat} (hnum : 0 < num) (hden : 0 < den) :
    (2 : ℚ) ^ ((num.log2 : Int) - den.log2 - 1) < num / den ∧
      (num : ℚ) / den < 2 ^ ((num.log2 : Int) - den.log2 + 1) := by
  have hpos : (0 : ℚ) < den := by exact_mod_cast hden
  have htwo : (2 : ℚ) ≠ 0 := by norm_num
  constructor
  · rw [lt_div_iff₀ hpos]
    calc (2 : ℚ) ^ ((num.log2 : Int) - den.log2 - 1) * den
        < 2 ^ ((num.log2 : Int) - den.log2 - 1) * 2 ^ ((den.log2 : Int) + 1) := by
          have := lt_two_pow_log2 den
          gcongr
      _ = 2 ^ (num.log2 : Int) := by
          rw [← zpow_add₀ htwo]
          congr 1
          omega
      _ ≤ num := two_pow_log2_le hnum
  · rw [div_lt_iff₀ hpos]
    calc (num : ℚ) < 2 ^ ((num.log2 : Int) + 1) := lt_two_pow_log2 num
      _ = 2 ^ ((num.log2 : Int) - den.log2 + 1) * 2 ^ (den.log2 : Int) := by
          rw [← zpow_add₀ htwo]
          congr 1
          omega
      _ ≤ 2 ^ ((num.log2 : Int) - den.log2 + 1) * den := by
          have := two_pow_log2_le hden
          gcongr

theorem binaryExponent_spec {num den : Nat} (hnum : 0 < num) (hden : 0 < den) :
    (2 : ℚ) ^ binaryExponent num den ≤ num / den ∧
      (num : ℚ) / den < 2 ^ (binaryExponent num den + 1) := by
  obtain ⟨hlow, hhigh⟩ := log2_sub_log2 hnum hden
  unfold binaryExponent
  dsimp only
  split
  · next h => exact ⟨(reaches_iff hden).mp h, hhigh⟩
  · next h =>
      rw [reaches_iff hden, not_le] at h
      refine ⟨hlow.le, ?_⟩
      rwa [sub_add_cancel]

/-- The exponent of a quotient is determined by the powers of two around it. -/
theorem binaryExponent_eq {num den : Nat} {k : Int} (hnum : 0 < num) (hden : 0 < den)
    (hlow : (2 : ℚ) ^ k ≤ num / den) (hhigh : (num : ℚ) / den < 2 ^ (k + 1)) :
    binaryExponent num den = k := by
  obtain ⟨hlow', hhigh'⟩ := binaryExponent_spec hnum hden
  have htwo : (1 : ℚ) < 2 := by norm_num
  have hle := (zpow_lt_zpow_iff_right₀ htwo).mp (hlow'.trans_lt hhigh)
  have hge := (zpow_lt_zpow_iff_right₀ htwo).mp (hlow.trans_lt hhigh')
  omega

/-! ### Doubles -/

/-- A positive double in normal form. -/
structure Normal (m : Nat) (e : Int) : Prop where
  pos : 0 < m
  lt : m < 2 ^ 53
  least : minExponent ≤ e
  most : e ≤ maxExponent
  /-- Only at the smallest exponent there are fewer bits. -/
  full : e = minExponent ∨ 2 ^ 52 ≤ m

/-- How far below a double lies what is still rounded to it, in units of its last place. -/
def slack (m : Nat) (e : Int) : ℚ :=
  if m = 2 ^ 52 ∧ minExponent < e then 1 / 4 else 1 / 2

/-- The rationals that are rounded to `m * 2 ^ e`. -/
structure RoundsTo (m : Nat) (e : Int) (q : ℚ) : Prop where
  low : (m : ℚ) - slack m e ≤ q / 2 ^ e
  high : q / 2 ^ e ≤ m + 1 / 2
  odd : m % 2 = 1 → (m : ℚ) - slack m e < q / 2 ^ e ∧ q / 2 ^ e < m + 1 / 2

theorem slack_le (m : Nat) (e : Int) : slack m e ≤ 1 / 2 := by
  unfold slack
  split <;> norm_num

theorem RoundsTo.nearest {m : Nat} {e : Int} {q : ℚ} (h : RoundsTo m e q) :
    Nearest m (q / 2 ^ e) := by
  have hslack := slack_le m e
  refine ⟨?_, h.high, ?_⟩
  · have hlow := h.low
    linarith
  · intro hodd
    obtain ⟨hlow, hhigh⟩ := h.odd hodd
    exact ⟨by linarith, hhigh⟩

theorem settle_of_lt {negative : Bool} {m : Nat} {e : Int} (hm : m < 2 ^ 53)
    (he : e ≤ maxExponent) : settle negative m e = .finite negative m e := by
  have hne : m ≠ Nat.pow 2 53 := Nat.ne_of_lt hm
  unfold settle
  simp only [hne, if_false]
  rw [if_neg (by omega)]

/-- A significand that was rounded up to 54 bits has the next exponent. -/
theorem settle_carried {negative : Bool} {e : Int} (he : e + 1 ≤ maxExponent) :
    settle negative (2 ^ 53) e = .finite negative (2 ^ 52) (e + 1) := by
  unfold settle
  simp only [Nat.pow_eq, if_true]
  rw [if_neg (by omega)]

theorem ofQuotient_eq {negative : Bool} {num den : Nat} (hnum : 0 < num) :
    ofQuotient negative num den =
      settle negative (inUnits num den (max minExponent (binaryExponent num den - 52)))
        (max minExponent (binaryExponent num den - 52)) := by
  unfold ofQuotient
  rw [if_neg (by omega)]

/-- Below the least significand of an exponent, quotients are taken in smaller units. -/
theorem ofQuotient_below {negative : Bool} {num den : Nat} {e : Int} (hnum : 0 < num)
    (hden : 0 < den) (hleast : minExponent < e) (hmost : e ≤ maxExponent)
    (hlow : (2 ^ 52 : ℚ) - 1 / 4 ≤ num / den / 2 ^ e) (hhigh : (num : ℚ) / den / 2 ^ e < 2 ^ 52) :
    ofQuotient negative num den = .finite negative (2 ^ 52) e := by
  have htwo : (2 : ℚ) ≠ 0 := by norm_num
  have hunit : (0 : ℚ) < 2 ^ e := zpow_pos (by norm_num) e
  have hhalf : (num : ℚ) / den / 2 ^ (e - 1) = 2 * (num / den / 2 ^ e) := by
    rw [zpow_sub_one₀ htwo]
    field_simp
  have hexp : binaryExponent num den = 51 + e := by
    apply binaryExponent_eq hnum hden
    · rw [zpow_add₀ htwo, ← le_div_iff₀ hunit]
      norm_num at hlow ⊢
      linarith
    · rw [show 51 + e + 1 = 52 + e by ring, zpow_add₀ htwo, ← div_lt_iff₀ hunit]
      exact_mod_cast hhigh
  have hnearest : Nearest (2 ^ 53) ((num : ℚ) / den / 2 ^ (e - 1)) := by
    rw [hhalf]
    refine ⟨?_, ?_, ?_⟩
    · norm_num at hlow ⊢
      linarith
    · norm_num at hhigh ⊢
      linarith
    · intro hodd
      exact absurd hodd (by decide)
  have hmax : max minExponent (binaryExponent num den - 52) = e - 1 := by omega
  rw [ofQuotient_eq hnum, hmax, inUnits_of_nearest hden hnearest, settle_carried (by omega),
    sub_add_cancel]

theorem ofQuotient_of_roundsTo {negative : Bool} {num den m : Nat} {e : Int} (hnum : 0 < num)
    (hden : 0 < den) (hnormal : Normal m e) (h : RoundsTo m e (num / den)) :
    ofQuotient negative num den = .finite negative m e := by
  have htwo : (2 : ℚ) ≠ 0 := by norm_num
  have hunit : (0 : ℚ) < 2 ^ e := zpow_pos (by norm_num) e
  have hleast := hnormal.least
  have hhigh := h.nearest.high
  have hlow := h.nearest.low
  obtain ⟨hexp, -⟩ := binaryExponent_spec hnum hden
  -- units of the exponent itself give the significand
  have hexact : max minExponent (binaryExponent num den - 52) = e →
      ofQuotient negative num den = .finite negative m e := by
    intro hmax
    rw [ofQuotient_eq hnum, hmax, inUnits_of_nearest hden h.nearest,
      settle_of_lt hnormal.lt hnormal.most]
  by_cases hfull : (num : ℚ) / den / 2 ^ e < 2 ^ 52
  · have hlt : binaryExponent num den < 52 + e := by
      apply (zpow_lt_zpow_iff_right₀ (by norm_num : (1 : ℚ) < 2)).mp
      refine hexp.trans_lt ?_
      rw [zpow_add₀ htwo, ← div_lt_iff₀ hunit]
      exact_mod_cast hfull
    by_cases hmin : e = minExponent
    · exact hexact (by omega)
    · have hge : 2 ^ 52 ≤ m := hnormal.full.resolve_left hmin
      have hm : m = 2 ^ 52 := by
        by_contra hne
        have hgt : (2 ^ 52 : ℚ) + 1 ≤ m := by exact_mod_cast Nat.lt_of_le_of_ne hge (Ne.symm hne)
        linarith
      have hslack : slack m e = 1 / 4 := if_pos ⟨hm, by omega⟩
      have hclose := h.low
      rw [hslack, hm] at hclose
      rw [hm]
      exact ofQuotient_below hnum hden (by omega) hnormal.most (by exact_mod_cast hclose) hfull
  · rw [not_lt] at hfull
    have hm : (m : ℚ) + 1 ≤ 2 ^ 53 := by exact_mod_cast hnormal.lt
    have heq : binaryExponent num den = 52 + e := by
      apply binaryExponent_eq hnum hden
      · rw [zpow_add₀ htwo, ← le_div_iff₀ hunit]
        exact_mod_cast hfull
      · rw [show 52 + e + 1 = 53 + e by ring, zpow_add₀ htwo, ← div_lt_iff₀ hunit]
        have hlt : (num : ℚ) / den / 2 ^ e < 2 ^ 53 := by linarith
        exact_mod_cast hlt
    exact hexact (by omega)

/-! ### Decimals -/

theorem toDigits_bounds {n : Nat} (h : 0 < n) :
    10 ^ ((Nat.toDigits 10 n).length - 1) ≤ n ∧ n < 10 ^ (Nat.toDigits 10 n).length := by
  have hpos : 0 < (Nat.toDigits 10 n).length := Nat.length_toDigits_pos
  refine ⟨?_, (Nat.length_toDigits_le_iff (by decide) hpos).mp (Nat.le_refl _)⟩
  by_cases hone : (Nat.toDigits 10 n).length = 1
  · rw [hone]
    exact h
  · by_contra hlt
    have hle := (Nat.length_toDigits_le_iff (by decide : 1 < 10)
      (by omega : 0 < (Nat.toDigits 10 n).length - 1)).mpr (Nat.lt_of_not_le hlt)
    omega

/-- A decimal is at least the power of ten of its first digit, and below the next. -/
theorem decimal_bounds {n : Nat} (k : Int) (h : 0 < n) :
    (10 : ℚ) ^ ((Nat.toDigits 10 n).length + k - 1) ≤ n * 10 ^ k ∧
      (n : ℚ) * 10 ^ k < 10 ^ ((Nat.toDigits 10 n).length + k) := by
  have hten : (10 : ℚ) ≠ 0 := by norm_num
  have hunit : (0 : ℚ) < 10 ^ k := zpow_pos (by norm_num) k
  have hpos : 0 < (Nat.toDigits 10 n).length := Nat.length_toDigits_pos
  obtain ⟨hlow, hhigh⟩ := toDigits_bounds h
  constructor
  · rw [show ((Nat.toDigits 10 n).length : Int) + k - 1 = ((Nat.toDigits 10 n).length - 1 : Nat) + k
      by omega, zpow_add₀ hten, zpow_natCast]
    have hcast : (10 : ℚ) ^ ((Nat.toDigits 10 n).length - 1) ≤ n := by exact_mod_cast hlow
    gcongr
  · rw [zpow_add₀ hten, zpow_natCast]
    have hcast : (n : ℚ) < 10 ^ (Nat.toDigits 10 n).length := by exact_mod_cast hhigh
    gcongr

theorem two_pow_lt_ten_pow : 2 ^ 1024 < 10 ^ 309 ∧ 2 ^ 1075 < 10 ^ 324 := by
  decide +kernel

theorem two_pow_lt (e : Int) (h : e ≤ maxExponent) : (2 : ℚ) ^ (53 + e) < 10 ^ (309 : Int) := by
  calc (2 : ℚ) ^ (53 + e) ≤ 2 ^ ((1024 : Nat) : Int) := by
        apply zpow_le_zpow_right₀ (by norm_num)
        have hmax : maxExponent = 971 := rfl
        omega
    _ = 2 ^ 1024 := zpow_natCast 2 1024
    _ < 10 ^ 309 := by exact_mod_cast two_pow_lt_ten_pow.1
    _ = 10 ^ ((309 : Nat) : Int) := (zpow_natCast 10 309).symm

theorem lt_two_pow (e : Int) (h : minExponent ≤ e) : (10 : ℚ) ^ (-324 : Int) < 2 ^ (e - 1) := by
  calc (10 : ℚ) ^ (-((324 : Nat) : Int)) = (10 ^ 324)⁻¹ := by rw [zpow_neg, zpow_natCast]
    _ < (2 ^ 1075)⁻¹ := by
        apply inv_strictAnti₀ (pow_pos (by norm_num) _)
        exact_mod_cast two_pow_lt_ten_pow.2
    _ = 2 ^ (-((1075 : Nat) : Int)) := by rw [zpow_neg, zpow_natCast]
    _ ≤ 2 ^ (e - 1) := by
        apply zpow_le_zpow_right₀ (by norm_num)
        have hmin : minExponent = -1074 := rfl
        omega

/-- What rounds to a double lies within the range of doubles. -/
theorem RoundsTo.range {m : Nat} {e : Int} {q : ℚ} (hnormal : Normal m e) (h : RoundsTo m e q) :
    (10 : ℚ) ^ (-324 : Int) < q ∧ q < 10 ^ (309 : Int) := by
  have htwo : (2 : ℚ) ≠ 0 := by norm_num
  have hunit : (0 : ℚ) < 2 ^ e := zpow_pos (by norm_num) e
  have hlow := h.nearest.low
  have hhigh := h.nearest.high
  rw [le_div_iff₀ hunit] at hlow
  rw [div_le_iff₀ hunit] at hhigh
  have hm : (1 : ℚ) ≤ m := by exact_mod_cast hnormal.pos
  have hm' : (m : ℚ) + 1 ≤ 2 ^ (53 : Int) := by exact_mod_cast hnormal.lt
  constructor
  · calc (10 : ℚ) ^ (-324 : Int) < 2 ^ (e - 1) := lt_two_pow e hnormal.least
      _ = 1 / 2 * 2 ^ e := by rw [zpow_sub_one₀ htwo, mul_comm, one_div]
      _ ≤ (m - 1 / 2) * 2 ^ e := by
          have hhalf : (1 : ℚ) / 2 ≤ m - 1 / 2 := by linarith
          gcongr
      _ ≤ q := hlow
  · calc q ≤ (m + 1 / 2) * 2 ^ e := hhigh
      _ ≤ 2 ^ (53 : Int) * 2 ^ e := by
          have hhalf : (m : ℚ) + 1 / 2 ≤ 2 ^ (53 : Int) := by linarith
          gcongr
      _ = 2 ^ (53 + e) := (zpow_add₀ htwo 53 e).symm
      _ < 10 ^ (309 : Int) := two_pow_lt e hnormal.most

theorem ofDecimal_of_roundsTo {negative : Bool} {mantissa m : Nat} {exponent e : Int}
    (hmantissa : 0 < mantissa) (hnormal : Normal m e)
    (h : RoundsTo m e (mantissa * 10 ^ exponent)) :
    ofDecimal negative mantissa exponent = .finite negative m e := by
  have hten : (1 : ℚ) < 10 := by norm_num
  have hpow : ∀ n, 0 < Nat.pow 10 n := fun n => Nat.pow_pos (by decide)
  obtain ⟨hlow, hhigh⟩ := h.range hnormal
  obtain ⟨hlow', hhigh'⟩ := decimal_bounds exponent hmantissa
  have hmost := (zpow_lt_zpow_iff_right₀ hten).mp (hlow'.trans_lt hhigh)
  have hleast := (zpow_lt_zpow_iff_right₀ hten).mp (hlow.trans hhigh')
  unfold ofDecimal
  dsimp only
  rw [if_neg (by omega), if_neg (by omega), if_neg (by omega)]
  split
  · next hexp =>
      apply ofQuotient_of_roundsTo (Nat.mul_pos hmantissa (hpow _)) Nat.one_pos hnormal
      rw [Nat.cast_mul, cast_pow_toNat 10 hexp, Nat.cast_one, div_one, Nat.cast_ofNat]
      exact h
  · next hexp =>
      apply ofQuotient_of_roundsTo hmantissa (hpow _) hnormal
      rw [cast_pow_neg_toNat 10 hexp, div_inv_eq_mul, Nat.cast_ofNat]
      exact h

end Tighten.Double
