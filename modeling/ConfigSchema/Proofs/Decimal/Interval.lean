import ConfigSchema.Decimal.Shortest
import ConfigSchema.Proofs.Binary64.Nearest

/-!
# The decimals that round to a number

The interval around a finite number (`ConfigSchema.Decimal.Interval.around`) holds exactly the
fractions that are rounded to it (`ConfigSchema.Decimal.Interval.contains_around_iff`). There are
two cases. Above the number, and below it unless it is a power of two, the fraction is on the grid
of the number, and the interval says that the number is the nearest point there. Below a power of
two the fraction is on the next finer grid, where the power of two is the first point that has one
bit too many.
-/

namespace ConfigSchema

/-- **A positive finite number.** -/
structure Binary64.IsPositive (x : Binary64) : Prop where
  /-- It has no sign. -/
  isNegative : x.isNegative = false
  /-- It is not zero. -/
  significand_ne_zero : x.significand ≠ 0
  /-- It is a number, and not infinity. -/
  exponentBits_ne : x.exponentBits ≠ 2047

namespace Decimal.Interval

open Binary64 (gridStep gridStep_pos gridStep_succ OnGrid)

/-! ### Points of an interval -/

/-- **A fraction lies in an interval.** -/
def Contains (i : Interval) (q : ℚ) : Prop :=
  if i.closed then i.lower * 2 ^ i.power ≤ q ∧ q ≤ i.upper * 2 ^ i.power
  else i.lower * 2 ^ i.power < q ∧ q < i.upper * 2 ^ i.power

theorem Contains.of_lt {i : Interval} {q : ℚ} (hlow : i.lower * 2 ^ i.power < q)
    (hhigh : q < i.upper * 2 ^ i.power) : i.Contains q := by
  rw [Contains]
  split
  · exact ⟨hlow.le, hhigh.le⟩
  · exact ⟨hlow, hhigh⟩

theorem Contains.le {i : Interval} {q : ℚ} (h : i.Contains q) :
    i.lower * 2 ^ i.power ≤ q ∧ q ≤ i.upper * 2 ^ i.power := by
  rw [Contains] at h
  split at h
  · exact h
  · exact ⟨h.1.le, h.2.le⟩

/-- Intervals have no holes. -/
theorem Contains.of_between {i : Interval} {q r s : ℚ} (hq : i.Contains q) (hs : i.Contains s)
    (hqr : q ≤ r) (hrs : r ≤ s) : i.Contains r := by
  rw [Contains] at hq hs ⊢
  by_cases hclosed : i.closed
  · rw [if_pos hclosed] at hq hs ⊢
    exact ⟨hq.1.trans hqr, hrs.trans hs.2⟩
  · rw [if_neg hclosed] at hq hs ⊢
    exact ⟨hq.1.trans_le hqr, hrs.trans_lt hs.2⟩

/-- A power with a denominator that makes it a natural number. -/
theorem zpow_mul_pow_toNat {b : ℚ} (hb : b ≠ 0) (p : ℤ) :
    b ^ p * b ^ (-p).toNat = b ^ p.toNat := by
  rw [Binary64.zpow_eq_div hb, div_mul_cancel₀ _ (pow_ne_zero _ hb)]

/-- The common scale of an interval and a grid. -/
theorem exists_common_scale (i : Interval) (k : ℤ) :
    ∃ c : ℚ, 0 < c ∧ (i.scale k : ℚ) = 2 ^ i.power * c ∧ (i.step k : ℚ) = 10 ^ k * c := by
  refine ⟨2 ^ (-i.power).toNat * 10 ^ (-k).toNat, by positivity, ?_, ?_⟩
  · rw [← mul_assoc, zpow_mul_pow_toNat two_ne_zero]
    simp only [scale, Nat.pow_eq]
    push_cast
    rfl
  · rw [mul_left_comm, zpow_mul_pow_toNat (by norm_num)]
    simp only [step, Nat.pow_eq]
    push_cast
    rfl

/-- **Points of a grid are compared with the ends exactly.** -/
theorem contains_iff (i : Interval) (k : ℤ) (n : ℕ) :
    i.contains k n = true ↔ i.Contains (n * 10 ^ k) := by
  obtain ⟨c, hc, hscale, hstep⟩ := exists_common_scale i k
  have hpoint : ((n * i.step k : ℕ) : ℚ) = n * 10 ^ k * c := by
    rw [Nat.cast_mul, hstep, mul_assoc]
  have hend : ∀ a : ℕ, ((a * i.scale k : ℕ) : ℚ) = a * 2 ^ i.power * c := by
    intro a
    rw [Nat.cast_mul, hscale, mul_assoc]
  rw [contains, Contains]
  split
  · rw [Bool.and_eq_true, decide_eq_true_iff, decide_eq_true_iff, ← Nat.cast_le (α := ℚ),
      ← Nat.cast_le (α := ℚ), hpoint, hend, hend, mul_le_mul_iff_of_pos_right hc,
      mul_le_mul_iff_of_pos_right hc]
  · rw [Bool.and_eq_true, decide_eq_true_iff, decide_eq_true_iff, ← Nat.cast_lt (α := ℚ),
      ← Nat.cast_lt (α := ℚ), hpoint, hend, hend, mul_lt_mul_iff_of_pos_right hc,
      mul_lt_mul_iff_of_pos_right hc]

theorem contains_eq_false_iff (i : Interval) (k : ℤ) (n : ℕ) :
    i.contains k n = false ↔ ¬i.Contains (n * 10 ^ k) := by
  rw [← contains_iff, Bool.not_eq_true]

/-! ### The interval around a number -/

variable {x : Binary64} {q : ℚ}

/-- An interval is given in quarters of a step. -/
theorem two_zpow_power (x : Binary64) : (2 : ℚ) ^ (around x).power = gridStep x.grid / 4 := by
  have hpower : (around x).power = (x.grid : ℤ) - 1074 - 2 := congrArg (· - 2) x.power_eq
  rw [hpower, zpow_sub₀ two_ne_zero, gridStep]
  norm_num

/-- Above a number and below it, if it is no power of two, the interval holds the fractions that
the number is nearest to. -/
theorem contains_around_of_wide (hx : x.significand ≠ 0)
    (hwide : ¬(x.fractionBits = 0 ∧ 1 < x.exponentBits)) :
    (around x).Contains q ↔ IsNearest (q / gridStep x.grid) x.significand := by
  have hpos := gridStep_pos x.grid
  have hlower : ((around x).lower : ℚ) = 4 * x.significand - 2 := by
    rw [around]
    simp only [if_neg hwide]
    rw [Nat.cast_sub (by omega)]
    push_cast
    rfl
  have hupper : ((around x).upper : ℚ) = 4 * x.significand + 2 := by
    rw [around]
    push_cast
    rfl
  have hclosed : (around x).closed = true ↔ x.significand % 2 = 0 := decide_eq_true_iff
  rw [Contains, IsNearest.iff_bounds, two_zpow_power, hlower, hupper]
  simp only [hclosed]
  have hlow : (4 * x.significand - 2 : ℚ) * (gridStep x.grid / 4) =
      (x.significand - 1 / 2) * gridStep x.grid := by ring
  have hhigh : (4 * x.significand + 2 : ℚ) * (gridStep x.grid / 4) =
      (x.significand + 1 / 2) * gridStep x.grid := by ring
  rw [hlow, hhigh, le_div_iff₀ hpos, div_le_iff₀ hpos, lt_div_iff₀ hpos, div_lt_iff₀ hpos]

theorem significand_of_narrow (hnarrow : x.fractionBits = 0 ∧ 1 < x.exponentBits) :
    x.significand = 2 ^ 52 := by
  rw [Binary64.significand, if_neg (by omega), hnarrow.1]
  rfl

/-- Around a power of two the interval is narrower below the number. -/
theorem contains_around_of_narrow (hnarrow : x.fractionBits = 0 ∧ 1 < x.exponentBits) :
    (around x).Contains q ↔
      2 ^ 52 - 1 / 4 ≤ q / gridStep x.grid ∧ q / gridStep x.grid ≤ 2 ^ 52 + 1 / 2 := by
  have hpos := gridStep_pos x.grid
  have hsignificand := significand_of_narrow hnarrow
  have hlower : ((around x).lower : ℚ) = 4 * 2 ^ 52 - 1 := by
    rw [around]
    simp only [if_pos hnarrow, hsignificand]
    norm_num
  have hupper : ((around x).upper : ℚ) = 4 * 2 ^ 52 + 2 := by
    rw [around, hsignificand]
    norm_num
  have hclosed : (around x).closed = true := by
    rw [around, hsignificand]
    rfl
  rw [Contains, if_pos hclosed, two_zpow_power, hlower, hupper, le_div_iff₀ hpos,
    div_le_iff₀ hpos]
  have hlow : (4 * 2 ^ 52 - 1 : ℚ) * (gridStep x.grid / 4) =
      (2 ^ 52 - 1 / 4) * gridStep x.grid := by ring
  have hhigh : (4 * 2 ^ 52 + 2 : ℚ) * (gridStep x.grid / 4) =
      (2 ^ 52 + 1 / 2) * gridStep x.grid := by ring
  rw [hlow, hhigh]

/-! ### Rounding to a number -/

/-- A fraction with the word of a number is on its grid, or on the next finer one and rounded up
to a power of two. -/
theorem eq_or_carry {e m : ℕ} (h : OnGrid q e m)
    (hbits : e * Nat.pow 2 52 + m = x.grid * Nat.pow 2 52 + x.significand) :
    e = x.grid ∧ m = x.significand ∨ m = 2 ^ 53 ∧ e + 1 = x.grid ∧ x.significand = 2 ^ 52 := by
  have hm := h.le_two_pow
  have hm' := h.two_pow_le
  have hx := x.significand_lt
  have hx' := x.two_pow_le_significand
  rw [Nat.pow_eq] at hbits
  omega

theorem lt_significand_of_wide (hwide : ¬(x.fractionBits = 0 ∧ 1 < x.exponentBits)) :
    x.grid = 0 ∨ 2 ^ 52 < x.significand := by
  rw [Binary64.grid, Binary64.significand, Nat.pow_eq]
  split <;> omega

/-- If a number is no power of two, then the fractions that it is nearest to are on its grid. -/
theorem onGrid_of_wide (hwide : ¬(x.fractionBits = 0 ∧ 1 < x.exponentBits))
    (h : IsNearest (q / gridStep x.grid) x.significand) : OnGrid q x.grid x.significand := by
  have hpos := gridStep_pos x.grid
  obtain ⟨hlow, hhigh⟩ := abs_le.mp h.abs_sub_le
  refine ⟨?_, ?_, h⟩
  · have hle : (x.significand : ℚ) + 1 ≤ 2 ^ 53 := by exact_mod_cast x.significand_lt
    rw [← div_lt_iff₀ hpos]
    linarith
  · refine (lt_significand_of_wide hwide).imp_right fun hlt => ?_
    have hle : (2 : ℚ) ^ 52 + 1 ≤ x.significand := by exact_mod_cast hlt
    rw [← le_div_iff₀ hpos]
    linarith

/-- The fractions around a power of two are on its grid or, below it, on the next finer one. -/
theorem onGrid_of_narrow {n : ℕ} (hlow : 2 ^ 52 - 1 / 4 ≤ q / gridStep (n + 1))
    (hhigh : q / gridStep (n + 1) ≤ 2 ^ 52 + 1 / 2) :
    OnGrid q (n + 1) (2 ^ 52) ∨ OnGrid q n (2 ^ 53) := by
  have hpos := gridStep_pos n
  rw [le_div_iff₀ (gridStep_pos _), gridStep_succ] at hlow
  rw [div_le_iff₀ (gridStep_pos _), gridStep_succ] at hhigh
  rcases le_or_gt (2 ^ 52 * gridStep (n + 1)) q with hge | hlt
  · refine .inl ⟨?_, .inr hge, IsNearest.iff_bounds.mpr ?_⟩
    · rw [gridStep_succ]
      linarith
    · rw [if_pos (by decide), le_div_iff₀ (gridStep_pos _), div_le_iff₀ (gridStep_pos _)]
      push_cast
      rw [gridStep_succ] at hge ⊢
      exact ⟨by linarith, by linarith⟩
  · rw [gridStep_succ] at hlt
    refine .inr ⟨by linarith, .inr (by linarith), IsNearest.iff_bounds.mpr ?_⟩
    rw [if_pos (by decide), le_div_iff₀ hpos, div_le_iff₀ hpos]
    push_cast
    exact ⟨by linarith, by linarith⟩

/-- What is rounded down to a power of two lies in the interval around it. -/
theorem narrow_of_onGrid {n : ℕ} (h : OnGrid q (n + 1) (2 ^ 52)) :
    2 ^ 52 - 1 / 4 ≤ q / gridStep (n + 1) ∧ q / gridStep (n + 1) ≤ 2 ^ 52 + 1 / 2 := by
  have hge := h.ge.resolve_left (Nat.succ_ne_zero n)
  have hhigh := (abs_le.mp h.nearest.abs_sub_le).2
  rw [← le_div_iff₀ (gridStep_pos _)] at hge
  push_cast at hhigh
  exact ⟨by linarith, by linarith⟩

/-- What is rounded up to a power of two lies in the interval around it. -/
theorem narrow_of_onGrid_carry {n : ℕ} (h : OnGrid q n (2 ^ 53)) :
    2 ^ 52 - 1 / 4 ≤ q / gridStep (n + 1) ∧ q / gridStep (n + 1) ≤ 2 ^ 52 + 1 / 2 := by
  have hpos := gridStep_pos n
  have hlow := (h.nearest.le_iff_of_even (k := 2 ^ 53) (by decide)).mp le_rfl
  have hlt := h.lt
  rw [le_div_iff₀ hpos] at hlow
  push_cast at hlow
  rw [le_div_iff₀ (gridStep_pos _), div_le_iff₀ (gridStep_pos _), gridStep_succ]
  exact ⟨by linarith, by linarith⟩

/-- **The interval around a number and the grids of fractions**: a fraction is in the interval
where its grid and its number of steps there give the word of the number. -/
theorem contains_around_iff_onGrid (hx : x.IsPositive) :
    (around x).Contains q ↔
      ∃ e m, OnGrid q e m ∧ e * Nat.pow 2 52 + m = x.bits.toNat := by
  rw [Binary64.toNat_bits hx.isNegative]
  by_cases hnarrow : x.fractionBits = 0 ∧ 1 < x.exponentBits
  · obtain ⟨n, hn⟩ : ∃ n, x.grid = n + 1 := ⟨x.exponentBits - 2, by rw [Binary64.grid]; omega⟩
    rw [contains_around_of_narrow hnarrow, significand_of_narrow hnarrow, hn]
    constructor
    · rintro ⟨hlow, hhigh⟩
      rcases onGrid_of_narrow hlow hhigh with hgrid | hgrid
      · exact ⟨_, _, hgrid, rfl⟩
      · refine ⟨_, _, hgrid, ?_⟩
        rw [Nat.pow_eq]
        omega
    · rintro ⟨e, m, hgrid, hbits⟩
      rw [← hn, ← significand_of_narrow hnarrow] at hbits
      rcases eq_or_carry hgrid hbits with ⟨he, hm⟩ | ⟨rfl, he, -⟩
      · rw [he, hm, hn, significand_of_narrow hnarrow] at hgrid
        exact narrow_of_onGrid hgrid
      · obtain rfl : e = n := by omega
        exact narrow_of_onGrid_carry hgrid
  · rw [contains_around_of_wide hx.significand_ne_zero hnarrow]
    constructor
    · exact fun hnearest => ⟨_, _, onGrid_of_wide hnarrow hnearest, rfl⟩
    · rintro ⟨e, m, hgrid, hbits⟩
      rcases eq_or_carry hgrid hbits with ⟨rfl, rfl⟩ | ⟨-, he, hsignificand⟩
      · exact hgrid.nearest
      · have hlt := (lt_significand_of_wide hnarrow).resolve_left (by omega)
        omega

/-- **The interval around a number** holds the fractions that are rounded to it. -/
theorem contains_around_iff {num den : ℕ} (hden : 0 < den) (hx : x.IsPositive) :
    (around x).Contains (num / den) ↔ Binary64.ofRatio num den = x := by
  have hlt := Binary64.toNat_bits_lt hx.isNegative hx.exponentBits_ne
  rw [contains_around_iff_onGrid hx]
  constructor
  · rintro ⟨e, m, hgrid, hbits⟩
    rw [Binary64.ofRatio_eq_of_onGrid hden hgrid (hbits ▸ hlt), hbits, Nat.toUInt64,
      UInt64.ofNat_toNat]
  · intro heq
    obtain ⟨e, m, hgrid, hword⟩ := Binary64.ofRatio_eq num hden
    refine ⟨e, m, hgrid, ?_⟩
    rw [heq] at hword
    split at hword
    · next hless => rw [hword, Binary64.toNat_word hless]
    · exact absurd (by rw [hword]; decide) hx.exponentBits_ne

end Decimal.Interval

end ConfigSchema
