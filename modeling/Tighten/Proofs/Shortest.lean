import Mathlib.Algebra.Order.Field.Power
import Tighten.Number.Shortest
import Tighten.Proofs.Rounding

/-
The shortest decimal is a decimal of its double.

The search tries the two neighbours of a value on ever finer grids of decimals.  A decimal that it
finds rounds to the value, since that is what it tests.  It finds one: with seventeen digits the
nearer neighbour is at most half a grid step away, and half a step is less than what still rounds to
the value, even below the least significand of an exponent.

The search relies on knowing the power of ten just above the value.  That is guessed from the binary
sizes and a fraction close to the decimal logarithm of two, and the guess is off by little as long
as the sizes are.
-/
namespace Tighten.Double

/-! ### Fractions -/

theorem magnitude_div (m : Nat) (e : Int) :
    0 < (magnitude m e).2 ∧ ((magnitude m e).1 : ℚ) / (magnitude m e).2 = m * 2 ^ e := by
  unfold magnitude
  split
  · next he =>
      refine ⟨Nat.one_pos, ?_⟩
      simp only [Nat.cast_mul, cast_pow_toNat 2 he, Nat.cast_ofNat, Nat.cast_one, div_one]
  · next he =>
      refine ⟨Nat.two_pow_pos _, ?_⟩
      simp only [cast_pow_neg_toNat 2 he, Nat.cast_ofNat, div_inv_eq_mul]

theorem scaled_div (num : Nat) {den : Nat} (shift : Int) (hden : 0 < den) :
    0 < (scaled num den shift).2 ∧
      ((scaled num den shift).1 : ℚ) / (scaled num den shift).2 = num / den * 10 ^ shift := by
  unfold scaled
  split
  · next hshift =>
      refine ⟨hden, ?_⟩
      simp only [Nat.cast_mul, cast_pow_toNat 10 hshift, Nat.cast_ofNat]
      rw [mul_div_right_comm]
  · next hshift =>
      refine ⟨Nat.mul_pos hden (Nat.pow_pos (by decide)), ?_⟩
      simp only [Nat.cast_mul, cast_pow_neg_toNat 10 hshift, Nat.cast_ofNat]
      rw [← div_div, div_inv_eq_mul]

/-! ### The power of ten above a value -/

theorem two_pow_ten_pow : 2 ^ 100000 ≤ 10 ^ 30103 ∧ 10 ^ 30103 ≤ 2 ^ 100001 := by
  decide +kernel

theorem ten_pow_nat_bounds (n : Nat) :
    (2 : ℚ) ^ (100000 * (n : Int)) ≤ 10 ^ (30103 * (n : Int)) ∧
      (10 : ℚ) ^ (30103 * (n : Int)) ≤ 2 ^ (100001 * (n : Int)) := by
  have hlow : (2 : ℚ) ^ 100000 ≤ 10 ^ 30103 := by exact_mod_cast two_pow_ten_pow.1
  have hhigh : (10 : ℚ) ^ 30103 ≤ 2 ^ 100001 := by exact_mod_cast two_pow_ten_pow.2
  rw [zpow_mul, zpow_mul, zpow_mul, zpow_natCast, zpow_natCast, zpow_natCast, zpow_ofNat,
    zpow_ofNat, zpow_ofNat]
  exact ⟨pow_le_pow_left₀ (pow_nonneg (by norm_num) _) hlow n,
    pow_le_pow_left₀ (pow_nonneg (by norm_num) _) hhigh n⟩

/-- Powers of ten between powers of two, as close as the fraction allows. -/
theorem ten_pow_bounds (b : Int) :
    (2 : ℚ) ^ (100000 * b - |b|) ≤ 10 ^ (30103 * b) ∧
      (10 : ℚ) ^ (30103 * b) ≤ 2 ^ (100000 * b + |b|) := by
  have htwo : (1 : ℚ) ≤ 2 := by norm_num
  have hpos : ∀ k : Int, (0 : ℚ) < 2 ^ k := fun k => zpow_pos (by norm_num) k
  have hten : ∀ k : Int, (0 : ℚ) < 10 ^ k := fun k => zpow_pos (by norm_num) k
  obtain ⟨n, hn | hn⟩ := b.eq_nat_or_neg
  · obtain ⟨hlow, hhigh⟩ := ten_pow_nat_bounds n
    have habs : |b| = n := by rw [hn, Nat.abs_cast]
    rw [habs, hn]
    constructor
    · exact (zpow_le_zpow_right₀ htwo (by omega)).trans hlow
    · exact hhigh.trans (zpow_le_zpow_right₀ htwo (by omega))
  · obtain ⟨hlow, hhigh⟩ := ten_pow_nat_bounds n
    have habs : |b| = n := by rw [hn, abs_neg, Nat.abs_cast]
    have hneg : (10 : ℚ) ^ (30103 * b) = (10 ^ (30103 * (n : Int)))⁻¹ := by
      rw [hn, mul_neg, zpow_neg]
    rw [habs, hneg]
    constructor
    · calc (2 : ℚ) ^ (100000 * b - n) = (2 ^ (100001 * (n : Int)))⁻¹ := by
            rw [← zpow_neg]
            congr 1
            omega
        _ ≤ (10 ^ (30103 * (n : Int)))⁻¹ := inv_anti₀ (hten _) hhigh
    · calc (10 ^ (30103 * (n : Int)))⁻¹ ≤ ((2 : ℚ) ^ (100000 * (n : Int)))⁻¹ :=
            inv_anti₀ (hpos _) hlow
        _ ≤ 2 ^ (100000 * b + n) := by
            rw [← zpow_neg]
            exact zpow_le_zpow_right₀ htwo (by omega)

/-- The guess at the power of ten is within a factor of a hundred of the power of two. -/
theorem ten_pow_guess {b : Int} (hb : |b| ≤ 100000) :
    (10 : ℚ) ^ (b * 30103 / 100000 - 2) ≤ 2 ^ b ∧
      (2 : ℚ) ^ (b + 2) ≤ 10 ^ (b * 30103 / 100000 + 2) := by
  have htwo : (2 : ℚ) ≠ 0 := by norm_num
  have hten : (10 : ℚ) ≠ 0 := by norm_num
  obtain ⟨hlow, hhigh⟩ := ten_pow_bounds b
  generalize hq : b * 30103 / 100000 = q
  have hup : (10 : ℚ) ^ q ≤ 2 ^ (b + 1) := by
    rw [← pow_le_pow_iff_left₀ (zpow_nonneg (by norm_num) _) (zpow_nonneg (by norm_num) _)
      (by norm_num : 100000 ≠ 0), ← zpow_natCast, ← zpow_natCast, ← zpow_mul, ← zpow_mul]
    calc (10 : ℚ) ^ (q * (100000 : Nat)) ≤ 10 ^ (30103 * b) :=
          zpow_le_zpow_right₀ (by norm_num) (by omega)
      _ ≤ 2 ^ (100000 * b + |b|) := hhigh
      _ ≤ 2 ^ ((b + 1) * (100000 : Nat)) := zpow_le_zpow_right₀ (by norm_num) (by omega)
  have hdown : (2 : ℚ) ^ (b - 1) ≤ 10 ^ (q + 1) := by
    rw [← pow_le_pow_iff_left₀ (zpow_nonneg (by norm_num) _) (zpow_nonneg (by norm_num) _)
      (by norm_num : 100000 ≠ 0), ← zpow_natCast, ← zpow_natCast, ← zpow_mul, ← zpow_mul]
    calc (2 : ℚ) ^ ((b - 1) * (100000 : Nat)) ≤ 2 ^ (100000 * b - |b|) :=
          zpow_le_zpow_right₀ (by norm_num) (by omega)
      _ ≤ 10 ^ (30103 * b) := hlow
      _ ≤ 10 ^ ((q + 1) * (100000 : Nat)) := zpow_le_zpow_right₀ (by norm_num) (by omega)
  have hpos : (0 : ℚ) < 2 ^ b := zpow_pos (by norm_num) b
  rw [zpow_add_one₀ htwo] at hup
  rw [zpow_sub_one₀ htwo, zpow_add_one₀ hten] at hdown
  rw [zpow_sub₀ hten, zpow_add₀ htwo, zpow_add₀ hten]
  constructor
  · rw [div_le_iff₀ (by norm_num)]
    norm_num
    linarith
  · norm_num at hdown ⊢
    linarith

theorem scaled_lt_iff {num den : Nat} {k : Int} (hden : 0 < den) :
    (scaled num den (-k)).1 < (scaled num den (-k)).2 ↔ (num : ℚ) / den < 10 ^ k := by
  obtain ⟨hpos, hdiv⟩ := scaled_div num (-k) hden
  have hcast : (0 : ℚ) < (scaled num den (-k)).2 := by exact_mod_cast hpos
  have hten : (0 : ℚ) < 10 ^ k := zpow_pos (by norm_num) k
  rw [← @Nat.cast_lt ℚ, ← div_lt_one hcast, hdiv, zpow_neg, ← div_eq_mul_inv, div_lt_one hten]

/-- The decimal point stands just above the value. -/
theorem decimalPoint_spec {num den : Nat} (hnum : 0 < num) (hden : 0 < den)
    (hbits : |(num.log2 : Int) - den.log2 - 1| ≤ 100000) :
    (10 : ℚ) ^ (decimalPoint num den - 1) ≤ num / den ∧
      (num : ℚ) / den < 10 ^ decimalPoint num den := by
  obtain ⟨hlow, hhigh⟩ := log2_sub_log2 hnum hden
  obtain ⟨hleast, hmost⟩ := ten_pow_guess hbits
  unfold decimalPoint
  simp only [decide_eq_true_eq, scaled_lt_iff hden]
  generalize ((num.log2 : Int) - den.log2 - 1) * 30103 / 100000 = q at hleast hmost
  by_cases h0 : (num : ℚ) / den < 10 ^ (q - 1)
  · rw [if_pos h0]
    refine ⟨?_, h0⟩
    rw [show q - 1 - 1 = q - 2 by ring]
    exact hleast.trans hlow.le
  rw [if_neg h0]
  rw [not_lt] at h0
  by_cases h1 : (num : ℚ) / den < 10 ^ (q - 1 + 1)
  · rw [if_pos h1]
    refine ⟨?_, h1⟩
    rwa [add_sub_cancel_right]
  rw [if_neg h1]
  rw [not_lt] at h1
  by_cases h2 : (num : ℚ) / den < 10 ^ (q - 1 + 2)
  · rw [if_pos h2]
    refine ⟨?_, h2⟩
    rwa [show q - 1 + 2 - 1 = q - 1 + 1 by ring]
  rw [if_neg h2]
  rw [not_lt] at h2
  constructor
  · rwa [show q - 1 + 3 - 1 = q - 1 + 2 by ring]
  · rw [show q - 1 + 3 = q + 2 by ring]
    refine hhigh.trans_le ?_
    rwa [show (num.log2 : Int) - den.log2 - 1 + 2 = num.log2 - den.log2 + 1 by ring] at hmost

/-! ### What the search tests -/

theorem slackBelow_le (m : Nat) (e : Int) : slackBelow m e ≤ 2 := by
  unfold slackBelow
  split <;> decide

theorem cast_slackBelow (m : Nat) (e : Int) : (slackBelow m e : ℚ) = 4 * slack m e := by
  unfold slackBelow slack
  rw [Nat.pow_eq]
  split <;> norm_num

theorem mul_le_mul_iff_div {a b c d : Nat} (hb : 0 < b) (hd : 0 < d) :
    a * d ≤ c * b ↔ (a : ℚ) / b ≤ c / d := by
  rw [div_le_div_iff₀ (by exact_mod_cast hb) (by exact_mod_cast hd)]
  exact_mod_cast Iff.rfl

theorem mul_lt_mul_iff_div {a b c d : Nat} (hb : 0 < b) (hd : 0 < d) :
    a * d < c * b ↔ (a : ℚ) / b < c / d := by
  rw [div_lt_div_iff₀ (by exact_mod_cast hb) (by exact_mod_cast hd)]
  exact_mod_cast Iff.rfl

/-- The test compares products of whole numbers in the place of fractions. -/
theorem roundsTo_iff {m : Nat} {e : Int} (hm : 0 < m) (digits : Nat) (unit : Int) :
    roundsTo m e digits unit = true ↔ RoundsTo m e (digits * 10 ^ unit) := by
  have hslack := slackBelow_le m e
  have hunit : (0 : ℚ) < 2 ^ e := zpow_pos (by norm_num) e
  obtain ⟨hld, hl⟩ := magnitude_div (4 * m - slackBelow m e) e
  obtain ⟨hhd, hh⟩ := magnitude_div (4 * m + 2) e
  obtain ⟨hdd, hd⟩ := scaled_div (4 * digits) unit Nat.one_pos
  rw [Nat.cast_sub (by omega), cast_slackBelow] at hl
  push_cast at hl hh hd
  rw [div_one] at hd
  unfold roundsTo
  generalize magnitude (4 * m - slackBelow m e) e = low at hld hl ⊢
  generalize magnitude (4 * m + 2) e = high at hhd hh ⊢
  generalize scaled (4 * digits) 1 unit = tested at hdd hd ⊢
  have hle : low.1 * tested.2 ≤ tested.1 * low.2 ↔
      (m : ℚ) - slack m e ≤ digits * 10 ^ unit / 2 ^ e := by
    rw [mul_le_mul_iff_div hld hdd, hl, hd, le_div_iff₀ hunit]
    constructor <;> intro h <;> linarith
  have hlt : low.1 * tested.2 < tested.1 * low.2 ↔
      (m : ℚ) - slack m e < digits * 10 ^ unit / 2 ^ e := by
    rw [mul_lt_mul_iff_div hld hdd, hl, hd, lt_div_iff₀ hunit]
    constructor <;> intro h <;> linarith
  have hge : tested.1 * high.2 ≤ high.1 * tested.2 ↔
      (digits : ℚ) * 10 ^ unit / 2 ^ e ≤ m + 1 / 2 := by
    rw [mul_le_mul_iff_div hdd hhd, hh, hd, div_le_iff₀ hunit]
    constructor <;> intro h <;> linarith
  have hgt : tested.1 * high.2 < high.1 * tested.2 ↔
      (digits : ℚ) * 10 ^ unit / 2 ^ e < m + 1 / 2 := by
    rw [mul_lt_mul_iff_div hdd hhd, hh, hd, div_lt_iff₀ hunit]
    constructor <;> intro h <;> linarith
  dsimp only
  rw [Bool.and_eq_true, decide_eq_true_eq, decide_eq_true_eq]
  by_cases heven : m % 2 = 0
  · simp only [heven, beq_self_eq_true, if_true, hle, hge]
    constructor
    · intro h
      exact ⟨h.1, h.2, fun hodd => by omega⟩
    · intro h
      exact ⟨h.low, h.high⟩
  · simp only [beq_eq_false_iff_ne.mpr heven, Bool.false_eq_true, if_false, hlt, hgt]
    constructor
    · intro h
      exact ⟨h.1.le, h.2.le, fun _ => h⟩
    · intro h
      exact h.odd (by omega)

/-! ### The search -/

/-- The decimal point stands just above a value. -/
structure PointOf (m : Nat) (e point : Int) : Prop where
  low : (10 : ℚ) ^ (point - 1) ≤ m * 2 ^ e
  high : (m : ℚ) * 2 ^ e < 10 ^ point

theorem log2_magnitude {m : Nat} {e : Int} (h : Normal m e) :
    |((magnitude m e).1.log2 : Int) - (magnitude m e).2.log2 - 1| ≤ 100000 := by
  have hm : m.log2 < 53 := (Nat.log2_lt (Nat.pos_iff_ne_zero.mp h.pos)).mpr h.lt
  have hleast : -1074 ≤ e := h.least
  have hmost : e ≤ 971 := h.most
  unfold magnitude
  split
  · next he =>
      have hnum : (m * Nat.pow 2 e.toNat).log2 < 53 + e.toNat := by
        apply (Nat.log2_lt (Nat.ne_of_gt (Nat.mul_pos h.pos (Nat.two_pow_pos _)))).mpr
        rw [Nat.pow_add]
        exact Nat.mul_lt_mul_of_pos_right h.lt (Nat.two_pow_pos _)
      have hone : Nat.log2 1 = 0 := by decide
      dsimp only
      rw [abs_le]
      omega
  · next he =>
      have hden : (Nat.pow 2 (-e).toNat).log2 = (-e).toNat := Nat.log2_two_pow
      dsimp only
      rw [abs_le, hden]
      omega

theorem decimalPoint_pointOf {m : Nat} {e : Int} (h : Normal m e) :
    PointOf m e (decimalPoint (magnitude m e).1 (magnitude m e).2) := by
  obtain ⟨hden, hdiv⟩ := magnitude_div m e
  have hnum : 0 < (magnitude m e).1 := by
    unfold magnitude
    split
    · exact Nat.mul_pos h.pos (Nat.two_pow_pos _)
    · exact h.pos
  obtain ⟨hlow, hhigh⟩ := decimalPoint_spec hnum hden (log2_magnitude h)
  rw [hdiv] at hlow hhigh
  exact ⟨hlow, hhigh⟩

/-- A decimal with the right number of digits, or the power of ten after them, that rounds to the
value. -/
structure Found (m : Nat) (e point : Int) (precision d : Nat) : Prop where
  low : 10 ^ (precision - 1) ≤ d
  high : d ≤ 10 ^ precision
  rounds : RoundsTo m e (d * 10 ^ (point - precision))

/-- The neighbour below a value on a grid. -/
def below (m : Nat) (e unit : Int) : Nat :=
  (scaled (magnitude m e).1 (magnitude m e).2 (-unit)).1 /
    (scaled (magnitude m e).1 (magnitude m e).2 (-unit)).2

theorem below_le (m : Nat) (e unit : Int) :
    (below m e unit : ℚ) * 10 ^ unit ≤ m * 2 ^ e ∧
      (m : ℚ) * 2 ^ e < (below m e unit + 1) * 10 ^ unit := by
  obtain ⟨hden, hdiv⟩ := magnitude_div m e
  obtain ⟨hpos, hscaled⟩ := scaled_div (magnitude m e).1 (-unit) hden
  have hten : (0 : ℚ) < 10 ^ unit := zpow_pos (by norm_num) unit
  rw [hdiv, zpow_neg, ← div_eq_mul_inv] at hscaled
  have hcast : (0 : ℚ) < (scaled (magnitude m e).1 (magnitude m e).2 (-unit)).2 := by
    exact_mod_cast hpos
  rw [← le_div_iff₀ hten, ← div_lt_iff₀ hten, ← hscaled, le_div_iff₀ hcast, div_lt_iff₀ hcast]
  unfold below
  constructor
  · exact_mod_cast Nat.div_mul_le_self _ _
  · have hlt := Nat.lt_mul_div_succ (scaled (magnitude m e).1 (magnitude m e).2 (-unit)).1 hpos
    rw [Nat.mul_comm] at hlt
    exact_mod_cast hlt

/-- The search tests the two neighbours of the value, and takes one that passes. -/
theorem atPrecision_cases (m precision : Nat) (e point : Int) :
    (atPrecision? m e point precision = none ∧
      roundsTo m e (below m e (point - precision)) (point - precision) = false ∧
      roundsTo m e (below m e (point - precision) + 1) (point - precision) = false) ∨
    ∃ d, atPrecision? m e point precision = some d ∧
      (d = below m e (point - precision) ∨ d = below m e (point - precision) + 1) ∧
      roundsTo m e d (point - precision) = true := by
  unfold atPrecision?
  dsimp only
  split
  next hlower hupper => exact Or.inl ⟨rfl, hlower, hupper⟩
  next hlower _ => exact Or.inr ⟨_, rfl, Or.inl rfl, hlower⟩
  next _ hupper => exact Or.inr ⟨_, rfl, Or.inr rfl, hupper⟩
  next hlower hupper =>
    refine Or.inr ?_
    split
    · exact ⟨_, rfl, Or.inl rfl, hlower⟩
    · split
      · exact ⟨_, rfl, Or.inr rfl, hupper⟩
      · -- halfway between the two the even one is taken
        have htaken (r : Nat) (hr : below m e (point - precision) % 2 = r) :
            some (below m e (point - precision) + below m e (point - precision) % 2) =
              some (below m e (point - precision) + r) := by rw [hr]
        obtain heven | hodd := Nat.mod_two_eq_zero_or_one (below m e (point - precision))
        · exact ⟨_, htaken 0 heven, Or.inl rfl, hlower⟩
        · exact ⟨_, htaken 1 hodd, Or.inr rfl, hupper⟩

theorem found_of_atPrecision {m d precision : Nat} {e point : Int} (hm : 0 < m)
    (hpoint : PointOf m e point) (hprecision : 0 < precision)
    (h : atPrecision? m e point precision = some d) : Found m e point precision d := by
  obtain ⟨hnone, -⟩ | ⟨d', hd', hneighbour, hrounds⟩ := atPrecision_cases m precision e point
  · rw [h] at hnone
    cases hnone
  obtain rfl : d = d' := Option.some.inj (h.symm.trans hd')
  obtain ⟨hle, hlt⟩ := below_le m e (point - precision)
  have hten : (10 : ℚ) ≠ 0 := by norm_num
  have hunit : (0 : ℚ) < 10 ^ (point - precision) := zpow_pos (by norm_num) _
  have hlow : 10 ^ (precision - 1) < below m e (point - precision) + 1 := by
    have hcast : (10 : ℚ) ^ (precision - 1) < below m e (point - precision) + 1 := by
      rw [← mul_lt_mul_iff_left₀ hunit, ← zpow_natCast, ← zpow_add₀ hten]
      refine lt_of_le_of_lt ?_ hlt
      rw [show ((precision - 1 : Nat) : Int) + (point - precision) = point - 1 by omega]
      exact hpoint.low
    exact_mod_cast hcast
  have hhigh : below m e (point - precision) < 10 ^ precision := by
    have hcast : (below m e (point - precision) : ℚ) < 10 ^ precision := by
      rw [← mul_lt_mul_iff_left₀ hunit, ← zpow_natCast, ← zpow_add₀ hten]
      refine lt_of_le_of_lt hle ?_
      rw [add_sub_cancel]
      exact hpoint.high
    exact_mod_cast hcast
  refine ⟨?_, ?_, (roundsTo_iff hm _ _).mp hrounds⟩
  · omega
  · omega

/-- Half a step of the finest grid is less than what still rounds to the value. -/
theorem half_step_lt {m : Nat} {e point : Int} (hnormal : Normal m e) (hpoint : PointOf m e point) :
    (10 : ℚ) ^ (point - 17) / 2 < slack m e * 2 ^ e := by
  have hunit : (0 : ℚ) < 2 ^ e := zpow_pos (by norm_num) e
  have hstep : (10 : ℚ) ^ (point - 17) * 10 ^ 16 ≤ m * 2 ^ e := by
    refine le_trans (le_of_eq ?_) hpoint.low
    rw [show point - 1 = point - 17 + (16 : Nat) by push_cast; ring, zpow_add₀ (by norm_num),
      zpow_natCast]
  unfold slack
  split
  · next h =>
      rw [h.1] at hstep
      push_cast at hstep
      norm_num at hstep
      linarith
  · have hm : (m : ℚ) * 2 ^ e ≤ 2 ^ 53 * 2 ^ e := by
      have hle : (m : ℚ) ≤ 2 ^ 53 := by exact_mod_cast hnormal.lt.le
      gcongr
    norm_num at hm hstep
    linarith

theorem roundsTo_of_lt {m : Nat} {e : Int} {q : ℚ} (hlow : (m - slack m e) * 2 ^ e < q)
    (hhigh : q < (m + 1 / 2) * 2 ^ e) : RoundsTo m e q := by
  have hunit : (0 : ℚ) < 2 ^ e := zpow_pos (by norm_num) e
  rw [← lt_div_iff₀ hunit] at hlow
  rw [← div_lt_iff₀ hunit] at hhigh
  exact ⟨hlow.le, hhigh.le, fun _ => ⟨hlow, hhigh⟩⟩

/-- With seventeen digits the nearer neighbour rounds to the value. -/
theorem atPrecision_seventeen {m : Nat} {e point : Int} (hnormal : Normal m e)
    (hpoint : PointOf m e point) : atPrecision? m e point 17 ≠ none := by
  intro hnone
  obtain ⟨-, hlower, hupper⟩ | ⟨d, hd, -⟩ := atPrecision_cases m 17 e point
  · have hstep := half_step_lt hnormal hpoint
    have hunit : (0 : ℚ) < 2 ^ e := zpow_pos (by norm_num) e
    have hslack : slack m e * 2 ^ e ≤ 1 / 2 * 2 ^ e := by
      have hle := slack_le m e
      gcongr
    obtain ⟨hle, hlt⟩ := below_le m e (point - 17)
    by_cases hnear : (m : ℚ) * 2 ^ e - below m e (point - 17) * 10 ^ (point - 17) ≤
        10 ^ (point - 17) / 2
    · have hrounds := (roundsTo_iff hnormal.pos (below m e (point - 17)) (point - 17)).mpr
        (roundsTo_of_lt (by linarith) (by linarith))
      rw [Nat.cast_ofNat, hrounds] at hlower
      cases hlower
    · rw [not_le] at hnear
      have hrounds := (roundsTo_iff hnormal.pos (below m e (point - 17) + 1) (point - 17)).mpr
        (roundsTo_of_lt (by push_cast; linarith) (by push_cast; linarith))
      rw [Nat.cast_ofNat, hrounds] at hupper
      cases hupper
  · rw [hnone] at hd
    cases hd

theorem searchFrom_found {m : Nat} {e point : Int} (hnormal : Normal m e)
    (hpoint : PointOf m e point) (fuel : Nat) :
    ∀ precision, 0 < precision → precision ≤ 17 → 17 < precision + fuel →
      0 < (searchFrom m e point fuel precision).2 ∧
        Found m e point (searchFrom m e point fuel precision).2
          (searchFrom m e point fuel precision).1 := by
  induction fuel with
  | zero =>
      intro precision hpos hle hlt
      omega
  | succ fuel ih =>
      intro precision hpos hle hlt
      unfold searchFrom
      split
      · next d hd => exact ⟨hpos, found_of_atPrecision hnormal.pos hpoint hpos hd⟩
      · next hnone =>
          have hne : precision ≠ 17 := by
            intro heq
            rw [heq] at hnone
            exact atPrecision_seventeen hnormal hpoint hnone
          exact ih (precision + 1) (by omega) (by omega) (by omega)

/-! ### Digits -/

theorem length_toDigits_eq {n k : Nat} (hlow : 10 ^ k ≤ n) (hhigh : n < 10 ^ (k + 1)) :
    (Nat.toDigits 10 n).length = k + 1 := by
  have hle := (Nat.length_toDigits_le_iff (by decide : 1 < 10) (by omega)).mpr hhigh
  have hlt := (toDigits_bounds (lt_of_lt_of_le (Nat.pow_pos (by decide)) hlow)).2
  have hpow := (Nat.pow_lt_pow_iff_right (by decide : 1 < 10)).mp (hlow.trans_lt hlt)
  omega

theorem length_toDigits_mul {n : Nat} (h : 0 < n) (k : Nat) :
    (Nat.toDigits 10 (n * 10 ^ k)).length = (Nat.toDigits 10 n).length + k := by
  obtain ⟨hlow, hhigh⟩ := toDigits_bounds h
  have hpos : 0 < (Nat.toDigits 10 n).length := Nat.length_toDigits_pos
  have hlength := @length_toDigits_eq (n * 10 ^ k) ((Nat.toDigits 10 n).length - 1 + k)
    (by rw [Nat.pow_add]; exact Nat.mul_le_mul_right _ hlow)
    (by
      rw [show (Nat.toDigits 10 n).length - 1 + k + 1 = (Nat.toDigits 10 n).length + k by omega,
        Nat.pow_add]
      exact Nat.mul_lt_mul_of_pos_right hhigh (Nat.pow_pos (by decide)))
  omega

theorem exists_stripZeros (fuel n : Nat) : ∃ k, stripZeros fuel n * 10 ^ k = n := by
  induction fuel generalizing n with
  | zero => exact ⟨0, Nat.mul_one n⟩
  | succ fuel ih =>
      unfold stripZeros
      split
      · obtain ⟨k, hk⟩ := ih (n / 10)
        refine ⟨k + 1, ?_⟩
        rw [Nat.pow_succ, ← Nat.mul_assoc, hk]
        omega
      · exact ⟨0, Nat.mul_one n⟩

/-- The shortest decimal of a double rounds to the double. -/
theorem shortest_roundsTo {m : Nat} {e : Int} (hnormal : Normal m e) :
    0 < (shortest m e).digits ∧
      RoundsTo m e ((shortest m e).digits *
        10 ^ ((shortest m e).point - (Nat.toDigits 10 (shortest m e).digits).length)) := by
  have hpoint := decimalPoint_pointOf hnormal
  generalize hp : decimalPoint (magnitude m e).1 (magnitude m e).2 = point at hpoint
  obtain ⟨hprecision, hfound⟩ := searchFrom_found hnormal hpoint 17 1 (by decide) (by decide)
    (by decide)
  have hdef : shortest m e = ⟨stripZeros 17 (searchFrom m e point 17 1).1,
      if Nat.pow 10 (searchFrom m e point 17 1).2 ≤ (searchFrom m e point 17 1).1 then point + 1
      else point⟩ := by
    rw [← hp]
    rfl
  rw [hdef]
  generalize searchFrom m e point 17 1 = result at hprecision hfound ⊢
  obtain ⟨d, precision⟩ := result
  dsimp only at hprecision hfound ⊢
  obtain ⟨k, hk⟩ := exists_stripZeros 17 d
  have hd : 0 < d := lt_of_lt_of_le (Nat.pow_pos (by decide)) hfound.low
  have hpos : 0 < stripZeros 17 d := by
    apply Nat.pos_of_ne_zero
    intro hzero
    rw [hzero, Nat.zero_mul] at hk
    omega
  refine ⟨hpos, ?_⟩
  have hlength := length_toDigits_mul hpos k
  rw [hk] at hlength
  -- the point moves with a carry, so that the last digit keeps its place
  have hplace : (if Nat.pow 10 precision ≤ d then point + 1 else point) -
      ((Nat.toDigits 10 (stripZeros 17 d)).length : Int) = k + (point - precision) := by
    have hhigh := hfound.high
    by_cases hcarry : Nat.pow 10 precision ≤ d
    · have hcarried := length_toDigits_eq hcarry
        (lt_of_le_of_lt hhigh (Nat.pow_lt_pow_right (by decide) (Nat.lt_succ_self _)))
      rw [if_pos hcarry]
      omega
    · have hexact := length_toDigits_eq hfound.low
        (by rw [Nat.sub_add_cancel hprecision]; exact Nat.lt_of_not_le hcarry)
      rw [if_neg hcarry]
      omega
  rw [hplace, zpow_add₀ (by norm_num), zpow_natCast, ← mul_assoc]
  have hcast : (stripZeros 17 d : ℚ) * 10 ^ k = d := by exact_mod_cast hk
  rw [hcast]
  exact hfound.rounds

end Tighten.Double
