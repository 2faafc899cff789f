import ConfigSchema.Binary64.Rounding
import Mathlib

/-!
# Rounding is to the nearest number

A word that rounding gives (`ConfigSchema.Binary64.ofRatio`) stands for a number that no other word
is nearer to (`ConfigSchema.Binary64.abs_sub_ofRatio_le`), and if another one is as near, the word
is even (`ConfigSchema.Binary64.even_ofRatio`). Infinity is given from the middle between the
largest number and the next power of two on (`ConfigSchema.Binary64.isInfinite_ofRatio_iff`).

A fraction is rounded on one grid of multiples of a power of two
(`ConfigSchema.Binary64.OnGrid`). The words for larger numbers are on this grid themselves, so the
nearest point of the grid is no farther from the fraction than any of them. All other words are
below the least point with fifty-three bits, which is on the grid and not above the fraction.
-/

namespace ConfigSchema

/-! ### The nearest natural number -/

/-- **A natural number is nearest to a fraction**, and even if another one is as near. -/
structure IsNearest (q : ℚ) (r : ℕ) : Prop where
  /-- The distance is at most one half. -/
  abs_sub_le : |q - r| ≤ 1 / 2
  /-- In the middle between two natural numbers the even one is taken. -/
  even_of_eq : |q - r| = 1 / 2 → r % 2 = 0

/-- What is left after rounding to a natural number, without fractions. -/
theorem roundHalfEven_cases (num : ℕ) {den : ℕ} (hden : 0 < den) :
    2 * |(num : ℤ) - den * roundHalfEven num den| < den ∨
      2 * |(num : ℤ) - den * roundHalfEven num den| = den ∧ roundHalfEven num den % 2 = 0 := by
  have hnum : (num : ℤ) = den * (num / den : ℕ) + (num % den : ℕ) := by
    exact_mod_cast (Nat.div_add_mod num den).symm
  have hrest : num % den < den := Nat.mod_lt _ hden
  rw [hnum, roundHalfEven]
  generalize num / den = below at *
  generalize num % den = rest at *
  have hup : (den : ℤ) * ((below + 1 : ℕ) : ℤ) = den * below + den := by
    push_cast
    ring
  split
  · refine .inl ?_
    rw [add_sub_cancel_left, abs_of_nonneg (by omega)]
    omega
  split
  · refine .inl ?_
    rw [hup, abs_of_nonpos (by omega)]
    omega
  · have hhalf : 2 * (rest : ℤ) = den := by omega
    rcases Nat.mod_two_eq_zero_or_one below with heven | hodd
    · refine .inr ⟨?_, by omega⟩
      rw [heven, Nat.add_zero, add_sub_cancel_left, abs_of_nonneg (by omega), hhalf]
    · refine .inr ⟨?_, by omega⟩
      rw [hodd, hup, abs_of_nonpos (by omega)]
      omega

/-- **Rounding to a natural number** gives the nearest one. -/
theorem isNearest_roundHalfEven {num den : ℕ} (hden : 0 < den) :
    IsNearest (num / den) (roundHalfEven num den) := by
  have hpos : (0 : ℚ) < den := by exact_mod_cast hden
  -- the distance is what is left, divided by the denominator
  have hdistance : |(num / den : ℚ) - roundHalfEven num den| =
      (|(num : ℤ) - den * roundHalfEven num den| : ℤ) / (den : ℚ) := by
    rw [eq_div_iff hpos.ne']
    nth_rewrite 2 [← abs_of_pos hpos]
    rw [← abs_mul, sub_mul, div_mul_cancel₀ _ hpos.ne', mul_comm (roundHalfEven num den : ℚ)]
    push_cast
    rfl
  rcases roundHalfEven_cases num hden with hless | ⟨hhalf, heven⟩
  · have hless : (2 * (|(num : ℤ) - den * roundHalfEven num den| : ℤ) : ℚ) < den := by
      exact_mod_cast hless
    have hlt : |(num / den : ℚ) - roundHalfEven num den| < 1 / 2 := by
      rw [hdistance, div_lt_iff₀ hpos]
      linarith
    exact ⟨hlt.le, fun heq => absurd heq hlt.ne⟩
  · have hhalf : (2 * (|(num : ℤ) - den * roundHalfEven num den| : ℤ) : ℚ) = den := by
      exact_mod_cast hhalf
    refine ⟨?_, fun _ => heven⟩
    rw [hdistance, div_le_iff₀ hpos]
    linarith

namespace IsNearest

variable {q : ℚ} {r k : ℕ}

/-- The two numbers next to each other are at least as far apart as one. -/
theorem one_le_add (h : k ≠ r) : 1 ≤ |q - r| + |q - k| := by
  have happart : (1 : ℤ) ≤ |(r : ℤ) - k| := Int.one_le_abs (by omega)
  have happart : (1 : ℚ) ≤ |(r : ℚ) - k| := by exact_mod_cast happart
  calc (1 : ℚ) ≤ |(r : ℚ) - k| := happart
    _ = |(r - q) + (q - k)| := by rw [sub_add_sub_cancel]
    _ ≤ |r - q| + |q - k| := abs_add_le _ _
    _ = |q - r| + |q - k| := by rw [abs_sub_comm]

/-- **No other number is nearer.** -/
theorem abs_sub_le_abs_sub (h : IsNearest q r) (k : ℕ) : |q - r| ≤ |q - k| := by
  by_cases hk : k = r
  · rw [hk]
  · linarith [one_le_add (q := q) hk, h.abs_sub_le]

/-- If another number is as near, then the nearest one is even. -/
theorem even_of_abs_sub_eq (h : IsNearest q r) (hk : k ≠ r) (heq : |q - r| = |q - k|) :
    r % 2 = 0 :=
  h.even_of_eq (le_antisymm h.abs_sub_le (by linarith [one_le_add (q := q) hk]))

/-- The nearest number by its bounds: those in the middle belong to the even numbers. -/
theorem iff_bounds :
    IsNearest q r ↔ if r % 2 = 0 then (r : ℚ) - 1 / 2 ≤ q ∧ q ≤ r + 1 / 2
      else (r : ℚ) - 1 / 2 < q ∧ q < r + 1 / 2 := by
  split
  · next heven =>
    constructor
    · intro h
      obtain ⟨hlow, hhigh⟩ := abs_le.mp h.abs_sub_le
      exact ⟨by linarith, by linarith⟩
    · rintro ⟨hlow, hhigh⟩
      exact ⟨abs_le.mpr ⟨by linarith, by linarith⟩, fun _ => heven⟩
  · next hodd =>
    constructor
    · intro h
      have hne : |q - r| ≠ 1 / 2 := fun heq => hodd (h.even_of_eq heq)
      obtain ⟨hlow, hhigh⟩ := abs_lt.mp (lt_of_le_of_ne h.abs_sub_le hne)
      exact ⟨by linarith, by linarith⟩
    · rintro ⟨hlow, hhigh⟩
      have hlt : |q - r| < 1 / 2 := abs_lt.mpr ⟨by linarith, by linarith⟩
      exact ⟨hlt.le, fun heq => absurd heq hlt.ne⟩

/-- Two nearest numbers would be next to each other. -/
theorem le_add_one (hr : IsNearest q r) (hk : IsNearest q k) : r ≤ k + 1 := by
  have hlow := (abs_le.mp hr.abs_sub_le).1
  have hhigh := (abs_le.mp hk.abs_sub_le).2
  have hle : (r : ℚ) ≤ k + 1 := by linarith
  exact_mod_cast hle

/-- **The nearest number is unique.** -/
theorem unique (hr : IsNearest q r) (hk : IsNearest q k) : r = k := by
  by_contra hne
  have hsum := one_le_add (q := q) (Ne.symm hne)
  -- both would be as far away as can be, so both would be even
  have hrEven := hr.even_of_eq (le_antisymm hr.abs_sub_le (by linarith [hk.abs_sub_le]))
  have hkEven := hk.even_of_eq (le_antisymm hk.abs_sub_le (by linarith [hr.abs_sub_le]))
  have hle := hr.le_add_one hk
  have hge := hk.le_add_one hr
  omega

/-- A natural number that is not above a fraction is not above the nearest one. -/
theorem le_of_le (h : IsNearest q r) (hk : (k : ℚ) ≤ q) : k ≤ r := by
  have hlow := (abs_le.mp h.abs_sub_le).2
  have hlt : (k : ℚ) < ((r + 1 : ℕ) : ℚ) := by
    push_cast
    linarith
  exact Nat.lt_succ_iff.mp (by exact_mod_cast hlt)

/-- A natural number that is not below a fraction is not below the nearest one. -/
theorem ge_of_ge (h : IsNearest q r) (hk : q ≤ k) : r ≤ k := by
  have hhigh := (abs_le.mp h.abs_sub_le).1
  have hlt : (r : ℚ) < ((k + 1 : ℕ) : ℚ) := by
    push_cast
    linarith
  exact Nat.lt_succ_iff.mp (by exact_mod_cast hlt)

/-- An even number is reached from one half below it on. -/
theorem le_iff_of_even (h : IsNearest q r) (hk : k % 2 = 0) : k ≤ r ↔ (k : ℚ) - 1 / 2 ≤ q := by
  obtain ⟨hhigh, hlow⟩ := abs_le.mp h.abs_sub_le
  constructor
  · intro hle
    have hle : (k : ℚ) ≤ r := by exact_mod_cast hle
    linarith
  · intro hge
    by_contra hlt
    have hlt : (r : ℚ) + 1 ≤ k := by exact_mod_cast not_le.mp hlt
    -- the fraction would be in the middle between two numbers, of which the odd one was taken
    have heven := h.even_of_eq (le_antisymm h.abs_sub_le (le_abs.mpr (.inl (by linarith))))
    have hnext : k = r + 1 := by
      have : (k : ℚ) = r + 1 := by linarith
      exact_mod_cast this
    omega

end IsNearest

namespace Binary64

/-! ### Powers as fractions -/

/-- A power is the quotient of two powers whose exponents are natural numbers. -/
theorem zpow_eq_div {b : ℚ} (hb : b ≠ 0) (p : ℤ) : b ^ p = b ^ p.toNat / b ^ (-p).toNat := by
  rw [eq_div_iff (pow_ne_zero _ hb), ← zpow_natCast, ← zpow_natCast, ← zpow_add₀ hb]
  congr 1
  omega

theorem two_pow_mul_two_zpow {n : ℕ} {p r : ℤ} (h : n + p = r) :
    (2 : ℚ) ^ n * 2 ^ p = 2 ^ r := by
  rw [← zpow_natCast, ← zpow_add₀ two_ne_zero, h]

/-- The fraction in steps of a power of two, as it is computed. -/
theorem scaled_eq (num den : ℕ) (p : ℤ) :
    ((num * Nat.pow 2 (-p).toNat : ℕ) : ℚ) / ((den * Nat.pow 2 p.toNat : ℕ) : ℚ) =
      num / den / 2 ^ p := by
  rw [zpow_eq_div two_ne_zero p]
  simp only [Nat.pow_eq]
  push_cast
  rw [div_div_div_eq]

/-- A fraction between two powers of two, by the bits of its numerator and its denominator. -/
theorem two_zpow_log2_lt {num den : ℕ} (hnum : 0 < num) (hden : 0 < den) :
    (2 : ℚ) ^ ((num.log2 : ℤ) - den.log2 - 1) < num / den ∧
      (num / den : ℚ) < 2 ^ ((num.log2 : ℤ) - den.log2 + 1) := by
  have hnumLow : (2 : ℚ) ^ (num.log2 : ℤ) ≤ num := by
    exact_mod_cast Nat.log2_self_le hnum.ne'
  have hnumHigh : (num : ℚ) < 2 ^ ((num.log2 : ℤ) + 1) := by
    exact_mod_cast Nat.lt_log2_self
  have hdenLow : (2 : ℚ) ^ (den.log2 : ℤ) ≤ den := by
    exact_mod_cast Nat.log2_self_le hden.ne'
  have hdenHigh : (den : ℚ) < 2 ^ ((den.log2 : ℤ) + 1) := by
    exact_mod_cast Nat.lt_log2_self
  have hpos : (0 : ℚ) < den := by exact_mod_cast hden
  constructor
  · rw [lt_div_iff₀ hpos]
    calc (2 : ℚ) ^ ((num.log2 : ℤ) - den.log2 - 1) * den
        < 2 ^ ((num.log2 : ℤ) - den.log2 - 1) * 2 ^ ((den.log2 : ℤ) + 1) := by gcongr
      _ = 2 ^ (num.log2 : ℤ) := by rw [← zpow_add₀ two_ne_zero]; congr 1; ring
      _ ≤ num := hnumLow
  · rw [div_lt_iff₀ hpos]
    calc (num : ℚ) < 2 ^ ((num.log2 : ℤ) + 1) := hnumHigh
      _ = 2 ^ ((num.log2 : ℤ) - den.log2 + 1) * 2 ^ (den.log2 : ℤ) := by
        rw [← zpow_add₀ two_ne_zero]; congr 1; ring
      _ ≤ 2 ^ ((num.log2 : ℤ) - den.log2 + 1) * den := by gcongr

/-! ### The grid of a fraction -/

/-- One step of a grid; the grids are counted from the finest one. -/
def gridStep (e : ℕ) : ℚ := 2 ^ ((e : ℤ) - 1074)

theorem gridStep_pos (e : ℕ) : 0 < gridStep e := zpow_pos two_pos _

theorem gridStep_le_gridStep {e f : ℕ} (h : e ≤ f) : gridStep e ≤ gridStep f :=
  zpow_le_zpow_right₀ one_le_two (by omega)

/-- The steps of a finer grid divide the steps of a coarser one. -/
theorem two_pow_mul_gridStep (e n : ℕ) : 2 ^ n * gridStep e = gridStep (e + n) := by
  rw [gridStep, gridStep, two_pow_mul_two_zpow]
  push_cast
  ring

theorem gridStep_succ (e : ℕ) : gridStep (e + 1) = 2 * gridStep e := by
  rw [← two_pow_mul_gridStep, pow_one]

/-- **A fraction on a grid**: it is below `2 ^ 53` steps, not below `2 ^ 52` steps unless the grid
is the finest, and `m` is the nearest number of steps. -/
structure OnGrid (q : ℚ) (e m : ℕ) : Prop where
  /-- The fraction has at most fifty-three bits on the grid. -/
  lt : q < 2 ^ 53 * gridStep e
  /-- It has no fewer, unless the grid is the finest one. -/
  ge : e = 0 ∨ 2 ^ 52 * gridStep e ≤ q
  /-- The nearest point of the grid is that many steps away from zero. -/
  nearest : IsNearest (q / gridStep e) m

/-- Whether a fraction has fewer than fifty-three bits on a grid, as it is computed. -/
theorem scaled_lt_iff {num den : ℕ} (hden : 0 < den) (p : ℤ) :
    num * Nat.pow 2 (-p).toNat < Nat.pow 2 52 * (den * Nat.pow 2 p.toNat) ↔
      (num / den : ℚ) < 2 ^ 52 * 2 ^ p := by
  have hpos : (0 : ℚ) < ((den * Nat.pow 2 p.toNat : ℕ) : ℚ) := by
    exact_mod_cast Nat.mul_pos hden (Nat.pow_pos two_pos)
  rw [← div_lt_iff₀ (zpow_pos two_pos p), ← scaled_eq, div_lt_iff₀ hpos]
  exact_mod_cast Iff.rfl

/-- **The power of two that is chosen** has the fraction on its grid. -/
theorem gridPower_spec {num den : ℕ} (hnum : 0 < num) (hden : 0 < den) :
    -1074 ≤ gridPower num den ∧ (num / den : ℚ) < 2 ^ 53 * 2 ^ gridPower num den ∧
      (gridPower num den = -1074 ∨ 2 ^ 52 * 2 ^ gridPower num den ≤ (num / den : ℚ)) := by
  obtain ⟨habove, hbelow⟩ := two_zpow_log2_lt hnum hden
  -- before the least power comes in, the power has both bounds
  obtain ⟨p, hp, hlt, hge⟩ : ∃ p, gridPower num den = max p (-1074) ∧
      (num / den : ℚ) < 2 ^ 53 * 2 ^ p ∧ 2 ^ 52 * 2 ^ p ≤ (num / den : ℚ) := by
    rw [gridPower]
    simp only [scaled_lt_iff hden]
    generalize hguess : (num.log2 : ℤ) - den.log2 - 52 = guess
    refine ⟨_, rfl, ?_⟩
    split
    · next hfew =>
      refine ⟨hfew.trans_eq ?_, (two_pow_mul_two_zpow (by omega)).trans_le habove.le⟩
      rw [two_pow_mul_two_zpow rfl, two_pow_mul_two_zpow (r := 52 + guess) (by omega)]
      rfl
    · next hmany =>
      exact ⟨hbelow.trans_eq (two_pow_mul_two_zpow (by omega)).symm, not_lt.mp hmany⟩
  have hle : (2 : ℚ) ^ p ≤ 2 ^ gridPower num den :=
    zpow_le_zpow_right₀ one_le_two (hp ▸ le_max_left _ _)
  refine ⟨hp ▸ le_max_right _ _, hlt.trans_le (by gcongr), ?_⟩
  rcases max_choice p (-1074) with hmax | hmax
  · exact .inr (by rwa [hp, hmax])
  · exact .inl (hp.trans hmax)

/-- **How a fraction is rounded**: its grid and its number of steps there give the word, up to
infinity. -/
theorem ofRatio_eq (num : ℕ) {den : ℕ} (hden : 0 < den) :
    ∃ e m, OnGrid (num / den) e m ∧ ofRatio num den =
      if e * Nat.pow 2 52 + m < 2047 * Nat.pow 2 52 then ⟨(e * Nat.pow 2 52 + m).toUInt64⟩
      else infinity := by
  rw [ofRatio]
  split
  · next hzero =>
    refine ⟨0, 0, ⟨?_, .inl rfl, ⟨?_, fun _ => rfl⟩⟩, rfl⟩
    · rw [hzero, Nat.cast_zero, zero_div]
      exact mul_pos (by norm_num) (gridStep_pos 0)
    · rw [hzero, Nat.cast_zero, zero_div, zero_div, sub_zero, abs_zero]
      norm_num
  · next hnum =>
    obtain ⟨hleast, hlt, hge⟩ := gridPower_spec (Nat.pos_of_ne_zero hnum) hden
    generalize gridPower num den = p at *
    have hstep : gridStep (p + 1074).toNat = 2 ^ p := by
      rw [gridStep]
      congr 1
      omega
    refine ⟨(p + 1074).toNat, _, ⟨?_, ?_, ?_⟩, rfl⟩
    · rwa [hstep]
    · rw [hstep]
      exact hge.imp_left fun hp => by omega
    · rw [hstep, ← scaled_eq]
      exact isNearest_roundHalfEven (Nat.mul_pos hden (Nat.pow_pos two_pos))

namespace OnGrid

variable {q : ℚ} {e m : ℕ}

/-- The nearest point has at most fifty-three bits, or is the next power of two. -/
theorem le_two_pow (h : OnGrid q e m) : m ≤ 2 ^ 53 := by
  refine h.nearest.ge_of_ge ?_
  rw [div_le_iff₀ (gridStep_pos e)]
  exact_mod_cast h.lt.le

/-- The nearest point has at least fifty-three bits, unless the grid is the finest one. -/
theorem two_pow_le (h : OnGrid q e m) : e = 0 ∨ 2 ^ 52 ≤ m := by
  refine h.ge.imp_right fun hge => h.nearest.le_of_le ?_
  rw [le_div_iff₀ (gridStep_pos e)]
  exact_mod_cast hge

/-- A fraction has too many bits on the grids that are finer than its own. -/
theorem le_of_onGrid (h : OnGrid q e m) {f k : ℕ} (hf : OnGrid q f k) : e ≤ f := by
  by_contra hlt
  have hge := h.ge.resolve_left (by omega)
  have hnext : gridStep (f + 1) ≤ gridStep e := gridStep_le_gridStep (by omega)
  rw [gridStep_succ] at hnext
  linarith [hf.lt]

/-- **A fraction has one grid.** -/
theorem unique (h : OnGrid q e m) {f k : ℕ} (hf : OnGrid q f k) : e = f ∧ m = k := by
  obtain rfl : e = f := le_antisymm (h.le_of_onGrid hf) (hf.le_of_onGrid h)
  exact ⟨rfl, h.nearest.unique hf.nearest⟩

end OnGrid

/-- The grid of a fraction and the number of steps there determine the word. -/
theorem ofRatio_eq_of_onGrid {num den e m : ℕ} (hden : 0 < den) (h : OnGrid (num / den) e m)
    (hword : e * Nat.pow 2 52 + m < 2047 * Nat.pow 2 52) :
    ofRatio num den = ⟨(e * Nat.pow 2 52 + m).toUInt64⟩ := by
  obtain ⟨f, k, hgrid, heq⟩ := ofRatio_eq num hden
  obtain ⟨rfl, rfl⟩ := h.unique hgrid
  rw [heq, if_pos hword]

/-! ### The number of a word -/

/-- **The magnitude of a finite number.** -/
def magnitude (x : Binary64) : ℚ := x.numerator / x.denominator

/-- The grid of a number: its significand counts the steps of this one. -/
def grid (x : Binary64) : ℕ := max x.exponentBits 1 - 1

theorem power_eq (x : Binary64) : x.power = (x.grid : ℤ) - 1074 := by
  rw [power, grid]
  omega

theorem magnitude_eq (x : Binary64) : x.magnitude = x.significand * gridStep x.grid := by
  rw [magnitude, numerator, denominator, gridStep, ← power_eq, zpow_eq_div two_ne_zero]
  simp only [Nat.pow_eq]
  push_cast
  rw [mul_div_assoc]

theorem denominator_pos (x : Binary64) : 0 < x.denominator := Nat.pow_pos two_pos

theorem toNat_word {word : ℕ} (h : word < 2047 * Nat.pow 2 52) : word.toUInt64.toNat = word := by
  rw [Nat.toUInt64, UInt64.toNat_ofNat']
  exact Nat.mod_eq_of_lt (h.trans (by decide))

/-- The exponent bits of a word below infinity. -/
theorem exponentBits_word {word : ℕ} (h : word < 2047 * Nat.pow 2 52) :
    (mk word.toUInt64).exponentBits = word / Nat.pow 2 52 := by
  have hexponent : word / Nat.pow 2 52 < 2047 := Nat.div_lt_of_lt_mul (Nat.mul_comm _ _ ▸ h)
  rw [exponentBits, toNat_word h]
  exact Nat.mod_eq_of_lt (hexponent.trans (by decide))

/-- The exponent bits of a word below infinity are not all set. -/
theorem exponentBits_ne_of_lt {word : ℕ} (h : word < 2047 * Nat.pow 2 52) :
    (mk word.toUInt64).exponentBits ≠ 2047 := by
  rw [exponentBits_word h]
  exact (Nat.div_lt_of_lt_mul (Nat.mul_comm _ _ ▸ h)).ne

/-- The fraction bits of a word below infinity. -/
theorem fractionBits_word {word : ℕ} (h : word < 2047 * Nat.pow 2 52) :
    (mk word.toUInt64).fractionBits = word % Nat.pow 2 52 := by
  rw [fractionBits, toNat_word h]

/-- **A word and its steps**: the leading bit of the number of steps carries into the exponent. -/
theorem magnitude_word {e m : ℕ} (hhigh : m ≤ 2 ^ 53) (hlow : e = 0 ∨ 2 ^ 52 ≤ m)
    (hword : e * Nat.pow 2 52 + m < 2047 * Nat.pow 2 52) :
    (mk (e * Nat.pow 2 52 + m).toUInt64).magnitude = m * gridStep e := by
  rw [magnitude_eq, significand, grid, exponentBits_word hword, fractionBits_word hword]
  simp only [Nat.pow_eq] at *
  -- a number of steps below the leading bit, with it, and the next power of two
  rcases lt_or_ge m (2 ^ 52) with hm | hm
  · have hexponent : (e * 2 ^ 52 + m) / 2 ^ 52 = 0 := by omega
    rw [if_pos hexponent, hexponent]
    obtain rfl : e = 0 := by omega
    rw [zero_mul, zero_add, Nat.mod_eq_of_lt hm]
    rfl
  rcases hhigh.lt_or_eq with hm' | rfl
  · have hexponent : (e * 2 ^ 52 + m) / 2 ^ 52 = e + 1 := by omega
    rw [if_neg (by omega), hexponent, max_eq_left (by omega), Nat.add_sub_cancel]
    congr 2
    omega
  · have hexponent : (e * 2 ^ 52 + 2 ^ 53) / 2 ^ 52 = e + 2 := by omega
    have hfraction : (e * 2 ^ 52 + 2 ^ 53) % 2 ^ 52 = 0 := by omega
    rw [if_neg (by omega), hexponent, hfraction, max_eq_left (by omega),
      show e + 2 - 1 = e + 1 from rfl, gridStep_succ]
    push_cast
    ring

/-- The word of a number without a sign. -/
theorem toNat_bits {x : Binary64} (h : x.isNegative = false) :
    x.bits.toNat = x.grid * Nat.pow 2 52 + x.significand := by
  have hbits : x.bits.toNat < 2 ^ 63 := by
    rw [isNegative, decide_eq_false_iff_not, Nat.pow_eq] at h
    omega
  have hexponent : x.exponentBits = x.bits.toNat / 2 ^ 52 := by
    rw [exponentBits, Nat.pow_eq, Nat.pow_eq]
    omega
  rw [grid, significand, fractionBits, hexponent]
  simp only [Nat.pow_eq]
  split <;> omega

theorem significand_lt (x : Binary64) : x.significand < 2 ^ 53 := by
  have hfraction : x.fractionBits < 2 ^ 52 := Nat.mod_lt _ (by decide)
  rw [significand]
  split
  · omega
  · rw [Nat.pow_eq]
    omega

/-- The leading bit of a number is set, unless it is on the finest grid. -/
theorem two_pow_le_significand (x : Binary64) : x.grid = 0 ∨ 2 ^ 52 ≤ x.significand := by
  rw [grid, significand, Nat.pow_eq]
  split
  · exact .inl (by omega)
  · exact .inr (Nat.le_add_right _ _)

/-- The word of a finite number without a sign is below infinity. -/
theorem toNat_bits_lt {x : Binary64} (hsign : x.isNegative = false)
    (hfinite : x.exponentBits ≠ 2047) : x.bits.toNat < 2047 * Nat.pow 2 52 := by
  have hsignificand := x.significand_lt
  have hexponent : x.exponentBits < 2048 := Nat.mod_lt _ (by decide)
  rw [toNat_bits hsign, grid, Nat.pow_eq]
  omega

/-! ### The nearest number -/

namespace OnGrid

variable {q : ℚ} {e m : ℕ}

/-- The distance of a fraction from a point of a grid, in steps. -/
theorem abs_sub_mul_gridStep (q : ℚ) (e k : ℕ) :
    |q - k * gridStep e| = |q / gridStep e - k| * gridStep e := by
  nth_rewrite 3 [← abs_of_pos (gridStep_pos e)]
  rw [← abs_mul, sub_mul, div_mul_cancel₀ _ (gridStep_pos e).ne']

/-- A coarse enough number is on the grid. -/
theorem exists_magnitude_eq {y : Binary64} (h : e ≤ y.grid) :
    ∃ k : ℕ, y.magnitude = k * gridStep e := by
  obtain ⟨n, hn⟩ := Nat.exists_eq_add_of_le h
  refine ⟨y.significand * 2 ^ n, ?_⟩
  rw [magnitude_eq, hn, ← two_pow_mul_gridStep]
  push_cast
  rw [mul_assoc]

/-- **A number off the grid is below it**, and so it is farther away than the nearest point. -/
theorem abs_sub_lt (h : OnGrid q e m) {y : Binary64} (hy : y.grid < e) :
    |q - m * gridStep e| < |q - y.magnitude| := by
  have hbelow : y.magnitude < 2 ^ 52 * gridStep e := by
    have hsignificand : (y.significand : ℚ) < 2 ^ 53 := by exact_mod_cast y.significand_lt
    calc y.magnitude = y.significand * gridStep y.grid := magnitude_eq y
      _ < 2 ^ 53 * gridStep y.grid :=
        mul_lt_mul_of_pos_right hsignificand (gridStep_pos _)
      _ = 2 ^ 52 * gridStep (y.grid + 1) := by
        rw [gridStep_succ, ← mul_assoc]
        norm_num
      _ ≤ 2 ^ 52 * gridStep e := by
        gcongr
        exact gridStep_le_gridStep hy
  have hge : 2 ^ 52 * gridStep e ≤ q := h.ge.resolve_left (by omega)
  calc |q - m * gridStep e| = |q / gridStep e - m| * gridStep e := abs_sub_mul_gridStep q e m
    _ ≤ |q / gridStep e - (2 ^ 52 : ℕ)| * gridStep e :=
      mul_le_mul_of_nonneg_right (h.nearest.abs_sub_le_abs_sub _) (gridStep_pos e).le
    _ = |q - (2 ^ 52 : ℕ) * gridStep e| := (abs_sub_mul_gridStep q e _).symm
    _ = q - 2 ^ 52 * gridStep e := by
      push_cast
      exact abs_of_nonneg (sub_nonneg.mpr hge)
    _ < q - y.magnitude := sub_lt_sub_left hbelow q
    _ ≤ |q - y.magnitude| := le_abs_self _

/-- **The numbers too large for a word**: they begin half a step above the largest number. -/
theorem le_word_iff (h : OnGrid q e m) :
    2047 * 2 ^ 52 ≤ e * 2 ^ 52 + m ↔ (2 ^ 54 - 1) * 2 ^ 970 ≤ q := by
  have hhigh := h.le_two_pow
  have hpos := gridStep_pos 2044
  -- the largest number is on the grid with the next step
  have hnext : gridStep 2045 = 2 * gridStep 2044 := gridStep_succ 2044
  rw [show (2 : ℚ) ^ 970 = gridStep 2044 from (zpow_natCast 2 970).symm]
  rcases lt_trichotomy e 2045 with he | rfl | he
  · have hle : gridStep e ≤ gridStep 2044 := gridStep_le_gridStep (by omega)
    refine iff_of_false (by omega) (not_le.mpr (h.lt.trans_le ?_))
    linarith
  · have hfull : 2047 * 2 ^ 52 ≤ 2045 * 2 ^ 52 + m ↔ 2 ^ 53 ≤ m := by omega
    rw [hfull, h.nearest.le_iff_of_even (by decide), le_div_iff₀ (gridStep_pos 2045), hnext]
    push_cast
    constructor <;> intro <;> linarith
  · have hlow : 2 ^ 52 ≤ m := h.two_pow_le.resolve_left (by omega)
    have hge : 2 ^ 52 * gridStep e ≤ q := h.ge.resolve_left (by omega)
    have hle : gridStep 2046 ≤ gridStep e := gridStep_le_gridStep he
    rw [gridStep_succ 2045, hnext] at hle
    refine iff_of_true (by omega) ?_
    linarith

end OnGrid

section

variable {num den : ℕ}

/-- **When rounding gives infinity**: from the middle between the largest number and the next
power of two on. -/
theorem isInfinite_ofRatio_iff (hden : 0 < den) :
    (ofRatio num den).isInfinite = true ↔ (2 ^ 54 - 1) * 2 ^ 970 ≤ (num / den : ℚ) := by
  obtain ⟨e, m, hgrid, heq⟩ := ofRatio_eq num hden
  rw [heq, ← hgrid.le_word_iff]
  split
  · next hword =>
    rw [isInfinite, beq_false_of_ne (exponentBits_ne_of_lt hword), Bool.false_and]
    exact iff_of_false Bool.false_ne_true (not_le.mpr hword)
  · next hword => exact iff_of_true (by decide) (not_lt.mp hword)

example : ofNat (2 ^ 1024 - 2 ^ 970) = infinity := by decide +kernel

/-- A fraction that is not rounded to infinity has a grid where its nearest point is the number
of the word. -/
theorem exists_onGrid (hden : 0 < den) (hfinite : (ofRatio num den).isInfinite = false) :
    ∃ e m, OnGrid (num / den) e m ∧ (ofRatio num den).magnitude = m * gridStep e ∧
      (ofRatio num den).bits.toNat % 2 = m % 2 := by
  obtain ⟨e, m, hgrid, heq⟩ := ofRatio_eq num hden
  rw [heq] at hfinite ⊢
  split at hfinite
  · next hword =>
    rw [if_pos hword]
    refine ⟨e, m, hgrid, magnitude_word hgrid.le_two_pow hgrid.two_pow_le hword, ?_⟩
    rw [toNat_word hword, Nat.pow_eq]
    omega
  · cases hfinite

/-- **Rounding gives the nearest number**: no word stands for a nearer one. -/
theorem abs_sub_ofRatio_le (hden : 0 < den) (hfinite : (ofRatio num den).isInfinite = false)
    (y : Binary64) :
    |(num / den : ℚ) - (ofRatio num den).magnitude| ≤ |(num / den : ℚ) - y.magnitude| := by
  obtain ⟨e, m, hgrid, hmagnitude, -⟩ := exists_onGrid hden hfinite
  rw [hmagnitude]
  rcases le_or_gt e y.grid with hy | hy
  · obtain ⟨k, hk⟩ := OnGrid.exists_magnitude_eq hy
    rw [hk, OnGrid.abs_sub_mul_gridStep, OnGrid.abs_sub_mul_gridStep]
    exact mul_le_mul_of_nonneg_right (hgrid.nearest.abs_sub_le_abs_sub k) (gridStep_pos e).le
  · exact (hgrid.abs_sub_lt hy).le

/-- **Of two numbers that are equally near, the even one is taken.** -/
theorem even_ofRatio (hden : 0 < den) (hfinite : (ofRatio num den).isInfinite = false)
    {y : Binary64} (hne : y.magnitude ≠ (ofRatio num den).magnitude)
    (heq : |(num / den : ℚ) - (ofRatio num den).magnitude| = |(num / den : ℚ) - y.magnitude|) :
    (ofRatio num den).bits.toNat % 2 = 0 := by
  obtain ⟨e, m, hgrid, hmagnitude, hbits⟩ := exists_onGrid hden hfinite
  rw [hmagnitude] at hne heq
  rcases le_or_gt e y.grid with hy | hy
  · obtain ⟨k, hk⟩ := OnGrid.exists_magnitude_eq hy
    rw [hk] at hne heq
    rw [OnGrid.abs_sub_mul_gridStep, OnGrid.abs_sub_mul_gridStep] at heq
    refine hbits.trans (hgrid.nearest.even_of_abs_sub_eq (k := k) ?_ ?_)
    · exact fun hkm => hne (hkm ▸ rfl)
    · exact mul_right_cancel₀ (gridStep_pos e).ne' heq
  · exact absurd heq (hgrid.abs_sub_lt hy).ne

-- halfway between two neighbours, of which the lower one is even
example : ofNat (2 ^ 53 + 1) = ofNat (2 ^ 53) := by decide +kernel

end

/-- **A product is rounded to the nearest number.** -/
theorem abs_sub_times_le {x y : Binary64} (hfinite : (x.times y).isInfinite = false)
    (z : Binary64) :
    |x.magnitude * y.magnitude - (x.times y).magnitude| ≤
      |x.magnitude * y.magnitude - z.magnitude| := by
  have hratio : x.magnitude * y.magnitude =
      ((x.numerator * y.numerator : ℕ) : ℚ) / ((x.denominator * y.denominator : ℕ) : ℚ) := by
    push_cast
    exact div_mul_div_comm _ _ _ _
  rw [hratio]
  exact abs_sub_ofRatio_le (Nat.mul_pos x.denominator_pos y.denominator_pos) hfinite z

/-- **A quotient is rounded to the nearest number.** -/
theorem abs_sub_dividedBy_le {x y : Binary64} (hy : 0 < y.numerator)
    (hfinite : (x.dividedBy y).isInfinite = false) (z : Binary64) :
    |x.magnitude / y.magnitude - (x.dividedBy y).magnitude| ≤
      |x.magnitude / y.magnitude - z.magnitude| := by
  have hratio : x.magnitude / y.magnitude =
      ((x.numerator * y.denominator : ℕ) : ℚ) / ((x.denominator * y.numerator : ℕ) : ℚ) := by
    push_cast
    exact div_div_div_eq _ _ _ _
  rw [hratio]
  exact abs_sub_ofRatio_le (Nat.mul_pos x.denominator_pos hy) hfinite z

end Binary64

end ConfigSchema
