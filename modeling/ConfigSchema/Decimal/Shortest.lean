import ConfigSchema.Binary64

/-!
# The shortest decimal that reads back

A floating point number is written with as few digits as possible: among all decimals that
round to it, one with the fewest digits, and among those with its exponent one that is nearest
to it. The decimals that round to a number form an interval around it, whose ends belong to it
exactly when the significand is even. Fewest digits means the coarsest grid of multiples of a
power of ten that has a point in the interval; of such a grid only the two points next to the
number have to be tried, since every point between the number and an end is farther out.

What remains open is which of two equally near points is taken; the two formats of this
library differ there, so it is a parameter, `ConfigSchema.Tie`.
-/

namespace ConfigSchema

/-- Which one of two equally near decimals is taken. -/
inductive Tie where
  /-- The one whose last digit is even. -/
  | toEven
  /-- The larger one. -/
  | up
  deriving DecidableEq, Repr

/-- The decimal `digits * 10 ^ exponent`. -/
structure Decimal where
  /-- The significant digits, read as a number. -/
  digits : Nat
  /-- The power of ten they are multiplied by. -/
  exponent : Int
  deriving DecidableEq, Repr

namespace Decimal

/-- The decimals that round to a finite number, as exact multiples of a quarter of the last
place. The interval is narrower below a power of two, where the neighbour is nearer. -/
structure Interval where
  /-- The lower end. -/
  lower : Nat
  /-- The number itself. -/
  centre : Nat
  /-- The upper end. -/
  upper : Nat
  /-- The power of two that the three are multiplied by. -/
  power : Int
  /-- The ends round to the number. -/
  closed : Bool

/-- The interval around a finite number that is not zero. -/
def Interval.around (x : Binary64) : Interval :=
  let m := x.significand
  let narrow := x.fractionBits = 0 ∧ 1 < x.exponentBits
  { lower := if narrow then 4 * m - 1 else 4 * m - 2
    centre := 4 * m
    upper := 4 * m + 2
    power := x.power - 2
    closed := m % 2 = 0 }

namespace Interval

/-- The factor that brings the three numbers to the common scale with the grid `10 ^ k`. -/
def scale (i : Interval) (k : Int) : Nat :=
  Nat.pow 2 i.power.toNat * Nat.pow 10 (-k).toNat

/-- One step of the grid `10 ^ k` on the common scale. -/
def step (i : Interval) (k : Int) : Nat :=
  Nat.pow 2 (-i.power).toNat * Nat.pow 10 k.toNat

/-- The point `n * 10 ^ k` lies in the interval. -/
def contains (i : Interval) (k : Int) (n : Nat) : Bool :=
  let point := n * i.step k
  let lower := i.lower * i.scale k
  let upper := i.upper * i.scale k
  if i.closed then lower ≤ point && point ≤ upper else lower < point && point < upper

/-- The point of the grid `10 ^ k` in the interval that is nearest to the number, if the
grid has one there. -/
def nearest? (tie : Tie) (i : Interval) (k : Int) : Option Nat :=
  let centre := i.centre * i.scale k
  let step := i.step k
  let below := centre / step
  let rest := centre % step
  match i.contains k below, i.contains k (below + 1) with
  | false, false => none
  | true, false => some below
  | false, true => some (below + 1)
  | true, true =>
    if 2 * rest < step then some below
    else if step < 2 * rest then some (below + 1)
    else match tie with
      | .toEven => some (below + below % 2)
      | .up => some (below + 1)

/-- Tries the grids from `10 ^ k` on to finer ones. Eighteen are enough, since seventeen
digits tell any two numbers apart. -/
def search (tie : Tie) (i : Interval) : Nat → Int → Decimal
  | 0, k => ⟨i.centre * i.scale k / i.step k, k⟩
  | n + 1, k =>
    match i.nearest? tie k with
    | some digits => ⟨digits, k⟩
    | none => search tie i n (k - 1)

end Interval

/-- How many decimal digits a number has. -/
def length (n : Nat) : Nat := (Nat.toDigits 10 n).length

/-- A power of ten that is not below the fraction `num / den`. -/
def ceilingExponent (num den : Nat) : Int :=
  if den ≤ num then length (num / den) else 1 - (length (den / num) : Int)

/-- **The shortest decimal that reads back** as a finite number that is not zero; the sign
is left out. -/
def shortest (tie : Tie) (x : Binary64) : Decimal :=
  (Interval.around x).search tie 20 (ceilingExponent x.numerator x.denominator)

end Decimal

end ConfigSchema
