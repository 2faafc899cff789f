import ConfigSchema.Proofs.Decimal.Interval

/-!
# The shortest decimal

The decimal that is written for a positive number (`ConfigSchema.Decimal.shortest`) is rounded to
the number again (`ConfigSchema.Decimal.roundsTo_shortest`). No decimal that is rounded to it has
fewer digits (`ConfigSchema.Decimal.length_shortest_le`), and of those with the same exponent none
is nearer (`ConfigSchema.Decimal.abs_sub_shortest_le`).

What carries these three is that the search ends on the coarsest grid that has a point in the
interval around the number (`ConfigSchema.Decimal.found_shortest`). The steps of the grids before
the first one that is tried are at least ten times the number, and the steps of the nineteenth are
shorter than the interval.
-/

namespace ConfigSchema.Decimal

/-! ### Counting digits -/

theorem length_le_iff {n k : ℕ} (hk : 0 < k) : length n ≤ k ↔ n < 10 ^ k :=
  Nat.length_toDigits_le_iff (by decide) hk

theorem length_pos (n : ℕ) : 0 < length n := Nat.length_toDigits_pos

theorem lt_ten_pow_length (n : ℕ) : n < 10 ^ length n :=
  (length_le_iff (length_pos n)).mp le_rfl

/-- The first digit is not a zero. -/
theorem ten_pow_le_of_length {n k : ℕ} (hn : n ≠ 0) (hk : length n = k + 1) : 10 ^ k ≤ n := by
  by_contra hlt
  rcases Nat.eq_zero_or_pos k with rfl | hpos
  · exact hn (by omega)
  · have := (length_le_iff hpos).mpr (not_le.mp hlt)
    omega

/-- A fraction between two powers of ten, by the digits of its whole part. -/
theorem ten_zpow_length_le {num den : ℕ} (hden : 0 < den) (hle : den ≤ num) :
    (10 : ℚ) ^ ((length (num / den) : ℤ) - 1) ≤ num / den ∧
      (num / den : ℚ) ≤ 10 ^ (length (num / den) : ℤ) := by
  obtain ⟨k, hk⟩ : ∃ k, length (num / den) = k + 1 :=
    ⟨length (num / den) - 1, (Nat.sub_add_cancel (length_pos _)).symm⟩
  have hpos : (0 : ℚ) < den := by exact_mod_cast hden
  have hlow := ten_pow_le_of_length (Nat.div_pos hle hden).ne' hk
  have hhigh : num / den < 10 ^ (k + 1) := hk ▸ lt_ten_pow_length _
  rw [hk]
  constructor
  · rw [le_div_iff₀ hpos, Nat.cast_succ, add_sub_cancel_right, zpow_natCast]
    exact_mod_cast (Nat.le_div_iff_mul_le hden).mp hlow
  · rw [div_le_iff₀ hpos, zpow_natCast]
    exact_mod_cast ((Nat.div_lt_iff_lt_mul hden).mp hhigh).le

/-- **The power of ten that the search begins with** is the least one that is not below the
number. -/
theorem ceilingExponent_spec {num den : ℕ} (hnum : 0 < num) (hden : 0 < den) :
    (10 : ℚ) ^ (ceilingExponent num den - 1) ≤ num / den ∧
      (num / den : ℚ) ≤ 10 ^ ceilingExponent num den := by
  rw [ceilingExponent]
  split
  · next hle => exact ten_zpow_length_le hden hle
  · next hlt =>
    -- the inverse of the fraction is above one
    obtain ⟨hlow, hhigh⟩ := ten_zpow_length_le hnum (not_le.mp hlt).le
    have hpos : (0 : ℚ) < den / num := by positivity
    rw [← inv_div (den : ℚ) num]
    constructor
    · rwa [le_inv_comm₀ (by positivity) hpos, ← zpow_neg, sub_sub_cancel_left, neg_neg]
    · rwa [inv_le_comm₀ hpos (by positivity), ← zpow_neg, neg_sub]

namespace Interval

/-! ### The point of a grid -/

/-- The number in the middle of an interval. -/
def number (i : Interval) : ℚ := i.centre * 2 ^ i.power

/-- **The two points of a grid next to the number**: it is `below` steps away from zero and the
part `t` of a step. -/
structure Between (i : Interval) (k : ℤ) (below : ℕ) (t : ℚ) : Prop where
  /-- The number itself is in the interval. -/
  contains : i.Contains i.number
  /-- The number is not below the one point. -/
  nonneg : 0 ≤ t
  /-- It is below the other one. -/
  lt_one : t < 1
  /-- Where the number is. -/
  number_eq : i.number = (below + t) * 10 ^ k

theorem step_pos (i : Interval) (k : ℤ) : 0 < i.step k :=
  Nat.mul_pos (Nat.pow_pos two_pos) (Nat.pow_pos (by decide))

/-- The two points are found by division. -/
theorem between_div_mod {i : Interval} (hcentre : i.Contains i.number) (k : ℤ) :
    i.Between k (i.centre * i.scale k / i.step k)
      ((i.centre * i.scale k % i.step k : ℕ) / i.step k) := by
  obtain ⟨c, hc, hscale, hstep⟩ := exists_common_scale i k
  have hpos : (0 : ℚ) < i.step k := by exact_mod_cast i.step_pos k
  have hrest : ((i.centre * i.scale k % i.step k : ℕ) : ℚ) < i.step k := by
    exact_mod_cast Nat.mod_lt _ (i.step_pos k)
  have hdivision : (i.centre * i.scale k : ℚ) = i.step k * (i.centre * i.scale k / i.step k : ℕ) +
      (i.centre * i.scale k % i.step k : ℕ) := by
    exact_mod_cast (Nat.div_add_mod (i.centre * i.scale k) (i.step k)).symm
  refine ⟨hcentre, by positivity, (div_lt_one hpos).mpr hrest, mul_right_cancel₀ hc.ne' ?_⟩
  calc i.number * c = i.centre * i.scale k := by rw [number, hscale, mul_assoc]
    _ = i.step k * (i.centre * i.scale k / i.step k : ℕ) +
        (i.centre * i.scale k % i.step k : ℕ) := hdivision
    _ = ((i.centre * i.scale k / i.step k : ℕ) +
        (i.centre * i.scale k % i.step k : ℕ) / (i.step k : ℚ)) * i.step k := by
      rw [add_mul, div_mul_cancel₀ _ hpos.ne', mul_comm]
    _ = _ := by rw [mul_assoc, ← hstep]

/-- **A point of a grid that is nearest to the number**, among those in the interval. -/
structure IsNearestPoint (i : Interval) (k : ℤ) (n : ℕ) : Prop where
  /-- The point is in the interval. -/
  contains : i.Contains (n * 10 ^ k)
  /-- No other point of the grid that is in the interval is nearer. -/
  abs_sub_le (m : ℕ) (h : i.Contains (m * 10 ^ k)) :
    |i.number - n * 10 ^ k| ≤ |i.number - m * 10 ^ k|

namespace Between

variable {i : Interval} {k : ℤ} {below : ℕ} {t : ℚ}

theorem abs_number_sub (h : i.Between k below t) (n : ℕ) :
    |i.number - n * 10 ^ k| = |below + t - n| * 10 ^ k := by
  have hpower : (0 : ℚ) < 10 ^ k := by positivity
  rw [h.number_eq, ← sub_mul, abs_mul, abs_of_pos hpower]

/-- With a point below the number the interval contains the next one below it. -/
theorem contains_below (h : i.Between k below t) {n : ℕ} (hn : n ≤ below)
    (hin : i.Contains (n * 10 ^ k)) : i.Contains (below * 10 ^ k) := by
  refine hin.of_between h.contains (by gcongr) ?_
  rw [h.number_eq]
  gcongr
  exact le_add_of_nonneg_right h.nonneg

/-- With a point above the number the interval contains the next one above it. -/
theorem contains_above (h : i.Between k below t) {n : ℕ} (hn : below < n)
    (hin : i.Contains (n * 10 ^ k)) : i.Contains ((below + 1 : ℕ) * 10 ^ k) := by
  refine h.contains.of_between hin ?_ (by gcongr; exact hn)
  rw [h.number_eq, Nat.cast_succ]
  gcongr
  exact h.lt_one.le

/-- The point below the number is the nearest one if the one above is farther or outside. -/
theorem isNearestPoint_below (h : i.Between k below t) (hbelow : i.Contains (below * 10 ^ k))
    (habove : i.Contains ((below + 1 : ℕ) * 10 ^ k) → t ≤ 1 / 2) : i.IsNearestPoint k below := by
  refine ⟨hbelow, fun m hm => ?_⟩
  rw [h.abs_number_sub, h.abs_number_sub]
  refine mul_le_mul_of_nonneg_right ?_ (by positivity)
  rw [add_sub_cancel_left, abs_of_nonneg h.nonneg]
  rcases le_or_gt m below with hle | hlt
  · have hle : (m : ℚ) ≤ below := by exact_mod_cast hle
    exact le_abs.mpr (.inl (by linarith))
  · have hhalf := habove (h.contains_above hlt hm)
    have hlt : (below : ℚ) + 1 ≤ m := by exact_mod_cast hlt
    exact le_abs.mpr (.inr (by linarith))

/-- The point above the number is the nearest one if the one below is farther or outside. -/
theorem isNearestPoint_above (h : i.Between k below t)
    (habove : i.Contains ((below + 1 : ℕ) * 10 ^ k))
    (hbelow : i.Contains (below * 10 ^ k) → 1 / 2 ≤ t) : i.IsNearestPoint k (below + 1) := by
  refine ⟨habove, fun m hm => ?_⟩
  have hlt := h.lt_one
  rw [h.abs_number_sub, h.abs_number_sub]
  refine mul_le_mul_of_nonneg_right ?_ (by positivity)
  rw [Nat.cast_succ, add_sub_add_left_eq_sub, abs_of_neg (by linarith)]
  rcases le_or_gt m below with hle | hlt
  · have hhalf := hbelow (h.contains_below hle hm)
    have hle : (m : ℚ) ≤ below := by exact_mod_cast hle
    exact le_abs.mpr (.inl (by linarith))
  · have hlt : (below : ℚ) + 1 ≤ m := by exact_mod_cast hlt
    exact le_abs.mpr (.inr (by linarith))

end Between

/-- What is found on a grid. -/
def Found (i : Interval) (k : ℤ) : Option ℕ → Prop
  | none => ∀ n : ℕ, ¬i.Contains (n * 10 ^ k)
  | some n => IsNearestPoint i k n

/-- **Trying the two points next to the number** finds a nearest one, if the interval has a point
of the grid at all. -/
theorem found_nearest? (tie : Tie) {i : Interval} (hcentre : i.Contains i.number) (k : ℤ) :
    i.Found k (i.nearest? tie k) := by
  have hbetween := between_div_mod hcentre k
  have hpos : (0 : ℚ) < i.step k := by exact_mod_cast i.step_pos k
  simp only [nearest?]
  generalize i.centre * i.scale k / i.step k = below at *
  generalize i.centre * i.scale k % i.step k = rest at *
  have hlow : 2 * rest ≤ i.step k → (rest / i.step k : ℚ) ≤ 1 / 2 := fun h => by
    have h : (2 * rest : ℚ) ≤ i.step k := by exact_mod_cast h
    rw [div_le_iff₀ hpos]
    linarith
  have hhigh : i.step k ≤ 2 * rest → 1 / 2 ≤ (rest / i.step k : ℚ) := fun h => by
    have h : (i.step k : ℚ) ≤ 2 * rest := by exact_mod_cast h
    rw [le_div_iff₀ hpos]
    linarith
  split
  · next hbelow habove =>
    rw [contains_eq_false_iff] at hbelow habove
    intro n hn
    rcases le_or_gt n below with hle | hlt
    · exact hbelow (hbetween.contains_below hle hn)
    · exact habove (hbetween.contains_above hlt hn)
  · next hbelow habove =>
    rw [contains_iff] at hbelow
    rw [contains_eq_false_iff] at habove
    exact hbetween.isNearestPoint_below hbelow fun h => absurd h habove
  · next hbelow habove =>
    rw [contains_eq_false_iff] at hbelow
    rw [contains_iff] at habove
    exact hbetween.isNearestPoint_above habove fun h => absurd h hbelow
  · next hbelow habove =>
    rw [contains_iff] at hbelow habove
    split
    · next hless => exact hbetween.isNearestPoint_below hbelow fun _ => hlow hless.le
    split
    · next hmore => exact hbetween.isNearestPoint_above habove fun _ => hhigh hmore.le
    · next hless hmore =>
      -- both points are equally near
      cases tie with
      | up => exact hbetween.isNearestPoint_above habove fun _ => hhigh (not_lt.mp hless)
      | toEven =>
        rcases Nat.mod_two_eq_zero_or_one below with heven | hodd
        · simp only [heven, Nat.add_zero]
          exact hbetween.isNearestPoint_below hbelow fun _ => hlow (not_lt.mp hmore)
        · simp only [hodd]
          exact hbetween.isNearestPoint_above habove fun _ => hhigh (not_lt.mp hless)

/-! ### The coarsest grid -/

/-- **The search ends on the first grid that has a point in the interval**, if one of the grids
that are tried has. -/
theorem found_search (tie : Tie) {i : Interval} (hcentre : i.Contains i.number) {fuel : ℕ} {k : ℤ}
    {j n : ℕ} (hj : j < fuel) (hn : i.Contains (n * 10 ^ (k - j))) :
    i.IsNearestPoint (i.search tie fuel k).exponent (i.search tie fuel k).digits ∧
      ∀ l ≤ k, (i.search tie fuel k).exponent < l → ∀ n : ℕ, ¬i.Contains (n * 10 ^ l) := by
  induction fuel generalizing k j with
  | zero => omega
  | succ fuel ih =>
    have hfound := found_nearest? tie hcentre k
    rw [search]
    split
    · next digits heq =>
      rw [heq] at hfound
      exact ⟨hfound, fun l hl hlt => absurd hl (not_le.mpr hlt)⟩
    · next heq =>
      rw [heq] at hfound
      obtain ⟨j, rfl⟩ : ∃ j', j = j' + 1 := Nat.exists_eq_succ_of_ne_zero fun hzero => by
        subst hzero
        exact hfound n (by simpa using hn)
      have hnext : k - (j + 1 : ℕ) = k - 1 - j := by
        push_cast
        ring
      obtain ⟨hpoint, hcoarser⟩ := ih (k := k - 1) (j := j) (by omega) (hnext ▸ hn)
      refine ⟨hpoint, fun l hl hlt => ?_⟩
      rcases hl.lt_or_eq with hl | rfl
      · exact hcoarser l (by omega) hlt
      · exact hfound

/-! ### The grids that are tried -/

variable {x : Binary64}

theorem number_around (x : Binary64) : (around x).number = x.magnitude := by
  rw [number, two_zpow_power, Binary64.magnitude_eq, around]
  push_cast
  ring

/-- The lower end is positive, and below the number. -/
theorem lower_around (hx : x.IsPositive) :
    0 < (around x).lower ∧ (around x).lower < (around x).centre := by
  have hne := hx.significand_ne_zero
  rw [around]
  dsimp only
  split <;> omega

/-- The upper end is half a step above the number. -/
theorem upper_around (x : Binary64) :
    ((around x).upper : ℚ) * 2 ^ (around x).power =
      x.magnitude + Binary64.gridStep x.grid / 2 := by
  rw [two_zpow_power, Binary64.magnitude_eq, around]
  push_cast
  ring

theorem contains_around_of_le (hx : x.IsPositive) {q : ℚ} (hle : x.magnitude ≤ q)
    (hlt : q < x.magnitude + Binary64.gridStep x.grid / 2) : (around x).Contains q := by
  refine Contains.of_lt (lt_of_lt_of_le ?_ hle) (by rwa [upper_around])
  rw [← number_around, number]
  have hlower : ((around x).lower : ℚ) < (around x).centre := by
    exact_mod_cast (lower_around hx).2
  gcongr

/-- **One of the grids that are tried has a point in the interval**, since the interval is longer
than the steps of the nineteenth one. -/
theorem exists_contains_around (hx : x.IsPositive) {k : ℤ} (hk : (10 : ℚ) ^ (k - 1) ≤ x.magnitude) :
    ∃ n : ℕ, (around x).Contains (n * 10 ^ (k - 18)) := by
  have hpower : (0 : ℚ) < 10 ^ (k - 18) := by positivity
  have hstep : (10 : ℚ) ^ (k - 18) ≤ Binary64.gridStep x.grid / 2 := by
    have hsignificand : (x.significand : ℚ) < 2 ^ 53 := by exact_mod_cast x.significand_lt
    have hlt : x.magnitude < 2 ^ 53 * Binary64.gridStep x.grid := by
      rw [Binary64.magnitude_eq]
      exact mul_lt_mul_of_pos_right hsignificand (Binary64.gridStep_pos _)
    have hsplit : (10 : ℚ) ^ (k - 1) = 10 ^ 17 * 10 ^ (k - 18) := by
      rw [← zpow_natCast, ← zpow_add₀ (by norm_num)]
      congr 1
      push_cast
      ring
    linarith
  have hmagnitude : 0 ≤ x.magnitude := le_trans (by positivity) hk
  -- the first point that is not below the number
  refine ⟨⌈x.magnitude / 10 ^ (k - 18)⌉₊, contains_around_of_le hx ?_ ?_⟩
  · rw [← div_le_iff₀ hpower]
    exact Nat.le_ceil _
  · have hceil := Nat.ceil_lt_add_one (div_nonneg hmagnitude hpower.le)
    rw [div_add_one hpower.ne', lt_div_iff₀ hpower] at hceil
    linarith

theorem gridStep_le_magnitude (hx : x.IsPositive) : Binary64.gridStep x.grid ≤ x.magnitude := by
  have hone : (1 : ℚ) ≤ x.significand := by
    exact_mod_cast Nat.one_le_iff_ne_zero.mpr hx.significand_ne_zero
  rw [Binary64.magnitude_eq]
  exact le_mul_of_one_le_left (Binary64.gridStep_pos _).le hone

/-- Zero is not in the interval. -/
theorem pos_of_contains_around (hx : x.IsPositive) {q : ℚ} (h : (around x).Contains q) : 0 < q := by
  refine lt_of_lt_of_le ?_ h.le.1
  have hlower : (0 : ℚ) < (around x).lower := by exact_mod_cast (lower_around hx).1
  positivity

/-- **The coarser grids have no point in the interval**, since their first point is too large. -/
theorem not_contains_around (hx : x.IsPositive) {k l : ℤ} (hk : x.magnitude ≤ 10 ^ k)
    (hl : k < l) (n : ℕ) : ¬(around x).Contains (n * 10 ^ l) := by
  intro h
  have hpos := pos_of_contains_around hx h
  have hone : (1 : ℚ) ≤ n := by
    rcases Nat.eq_zero_or_pos n with rfl | hn
    · simp at hpos
    · exact_mod_cast hn
  have hstep := gridStep_le_magnitude hx
  have hgrid := Binary64.gridStep_pos x.grid
  have hhigh := h.le.2
  rw [upper_around] at hhigh
  have hten : 10 * (10 : ℚ) ^ k ≤ 10 ^ l := by
    rw [mul_comm, ← zpow_add_one₀ (by norm_num)]
    exact zpow_le_zpow_right₀ (by norm_num) hl
  have hfirst : (10 : ℚ) ^ l ≤ n * 10 ^ l := le_mul_of_one_le_left (by positivity) hone
  linarith

end Interval

/-! ### The decimal that is written -/

/-- The fraction that a decimal stands for. -/
def value (d : Decimal) : ℚ := d.digits * 10 ^ d.exponent

/-- **A decimal is rounded to a number.** -/
def RoundsTo (d : Decimal) (x : Binary64) : Prop :=
  Binary64.ofRatio (d.digits * Nat.pow 10 d.exponent.toNat) (Nat.pow 10 (-d.exponent).toNat) = x

section

variable {x : Binary64} {d : Decimal}

/-- The decimals that are rounded to a number are those in the interval around it. -/
theorem roundsTo_iff (hx : x.IsPositive) :
    d.RoundsTo x ↔ (Interval.around x).Contains d.value := by
  have hvalue : d.value = ((d.digits * Nat.pow 10 d.exponent.toNat : ℕ) : ℚ) /
      ((Nat.pow 10 (-d.exponent).toNat : ℕ) : ℚ) := by
    rw [value, Binary64.zpow_eq_div (by norm_num)]
    simp only [Nat.pow_eq]
    push_cast
    rw [mul_div_assoc]
  have hden : 0 < Nat.pow 10 (-d.exponent).toNat := Nat.pow_pos (by decide)
  rw [hvalue, Interval.contains_around_iff hden hx, RoundsTo]

/-- **What the search for the shortest decimal finds.** -/
theorem found_shortest (tie : Tie) (hx : x.IsPositive) :
    (Interval.around x).IsNearestPoint (shortest tie x).exponent (shortest tie x).digits ∧
      ∀ l, (shortest tie x).exponent < l → ∀ n : ℕ, ¬(Interval.around x).Contains (n * 10 ^ l) := by
  have hnum : 0 < x.numerator :=
    Nat.mul_pos (Nat.pos_of_ne_zero hx.significand_ne_zero) (Nat.pow_pos two_pos)
  obtain ⟨hlow, hhigh⟩ := ceilingExponent_spec hnum x.denominator_pos
  have hcentre : (Interval.around x).Contains (Interval.around x).number := by
    rw [Interval.number_around]
    exact Interval.contains_around_of_le hx le_rfl
      (lt_add_of_pos_right _ (half_pos (Binary64.gridStep_pos _)))
  obtain ⟨n, hn⟩ := Interval.exists_contains_around hx hlow
  obtain ⟨hpoint, hcoarser⟩ := Interval.found_search tie hcentre (show 18 < 20 by omega) hn
  refine ⟨hpoint, fun l hl => ?_⟩
  rcases le_or_gt l (ceilingExponent x.numerator x.denominator) with hle | hlt
  · exact hcoarser l hle hl
  · exact Interval.not_contains_around hx hhigh hlt

/-- **The shortest decimal is rounded to the number again.** -/
theorem roundsTo_shortest (tie : Tie) (hx : x.IsPositive) : (shortest tie x).RoundsTo x :=
  (roundsTo_iff hx).mpr (found_shortest tie hx).1.contains

-- the sum of a tenth and a fifth, which is not the number nearest to three tenths
example : shortest .toEven ⟨0x3fd3333333333334⟩ = ⟨30000000000000004, -17⟩ := by
  decide +kernel

/-- No decimal that is rounded to the number is on a coarser grid. -/
theorem exponent_le_exponent_shortest (tie : Tie) (hx : x.IsPositive) (hd : d.RoundsTo x) :
    d.exponent ≤ (shortest tie x).exponent := by
  by_contra hlt
  exact (found_shortest tie hx).2 _ (not_le.mp hlt) _ ((roundsTo_iff hx).mp hd)

/-- The digits do not end in a zero. -/
theorem digits_shortest_mod_ten_ne_zero (tie : Tie) (hx : x.IsPositive) :
    (shortest tie x).digits % 10 ≠ 0 := by
  intro hzero
  obtain ⟨hpoint, hcoarser⟩ := found_shortest tie hx
  obtain ⟨n, hn⟩ := Nat.dvd_of_mod_eq_zero hzero
  refine hcoarser _ (Int.lt_succ _) n ?_
  convert hpoint.contains using 1
  rw [hn, zpow_add_one₀ (by norm_num)]
  push_cast
  ring

/-- **None that has the same exponent is nearer.** -/
theorem abs_sub_shortest_le (tie : Tie) (hx : x.IsPositive) (hd : d.RoundsTo x)
    (hexponent : d.exponent = (shortest tie x).exponent) :
    |x.magnitude - (shortest tie x).value| ≤ |x.magnitude - d.value| := by
  have hnearest := (found_shortest tie hx).1.abs_sub_le d.digits
  rw [← hexponent, Interval.number_around] at hnearest
  rw [value, ← hexponent]
  exact hnearest ((roundsTo_iff hx).mp hd)

/-- **None has fewer digits.** -/
theorem length_shortest_le (tie : Tie) (hx : x.IsPositive) (hd : d.RoundsTo x) :
    length (shortest tie x).digits ≤ length d.digits := by
  by_contra hlt
  obtain ⟨hpoint, hcoarser⟩ := found_shortest tie hx
  have hexponent := exponent_le_exponent_shortest tie hx hd
  have hdigits : (d.digits : ℚ) ≤ 10 ^ length d.digits := by
    exact_mod_cast (lt_ten_pow_length d.digits).le
  have hdigits' : (10 : ℚ) ^ length d.digits ≤ (shortest tie x).digits := by
    exact_mod_cast not_lt.mp ((length_le_iff (length_pos _)).not.mp hlt)
  -- a power of ten stands between the two decimals, and it is on a coarser grid
  have hpower : (10 : ℚ) ^ ((length d.digits : ℤ) + (shortest tie x).exponent) =
      10 ^ length d.digits * 10 ^ (shortest tie x).exponent := by
    rw [zpow_add₀ (by norm_num), zpow_natCast]
  refine hcoarser (length d.digits + (shortest tie x).exponent) ?_ 1 ?_
  · have := length_pos d.digits
    omega
  · rw [Nat.cast_one, one_mul, hpower]
    refine ((roundsTo_iff hx).mp hd).of_between hpoint.contains ?_ ?_
    · exact mul_le_mul hdigits (zpow_le_zpow_right₀ (by norm_num) hexponent) (by positivity)
        (by positivity)
    · gcongr

end

end ConfigSchema.Decimal
