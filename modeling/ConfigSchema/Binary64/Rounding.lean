import ConfigSchema.Binary64

/-!
# Rounding to the nearest floating point number

The reader of decimal numbers needs three operations: the nearest number to a natural
number, to a product and to a quotient. All three are one function,
`ConfigSchema.Binary64.ofRatio`, applied to exact fractions: it chooses the power of two on
whose grid the fraction has fifty-three bits (or the least power, for fractions near zero),
and goes to the nearer of the two neighbours on that grid, of two equally near ones to the
even one.

The word is then one sum. On the grid `2 ^ p` a significand `m` below `2 ^ 53` is written
`(p + 1074) * 2 ^ 52 + m`: for a normal number the leading bit of `m` carries into the
exponent, for the least power nothing is carried, and `m = 2 ^ 53` carries twice, which is
the number that it stands for.
-/

namespace ConfigSchema

/-- The natural number nearest to `num / den`; a half goes to the even neighbour. -/
def roundHalfEven (num den : Nat) : Nat :=
  let below := num / den
  let rest := num % den
  if 2 * rest < den then below
  else if den < 2 * rest then below + 1
  else below + below % 2

namespace Binary64

/-- The power of two on whose grid `num / den` has fifty-three bits, and no less than the
least power there is. -/
def gridPower (num den : Nat) : Int :=
  -- the quotient lies between `2 ^ (guess + 51)` and `2 ^ (guess + 53)`
  let guess : Int := (Nat.log2 num : Int) - Nat.log2 den - 52
  let low := num * Nat.pow 2 (-guess).toNat < Nat.pow 2 52 * (den * Nat.pow 2 guess.toNat)
  max (if low then guess - 1 else guess) (-1074)

/-- **The number nearest to a fraction**: the even one of two that are equally near, and
infinity from the middle between the largest finite number and the next power of two on. -/
def ofRatio (num den : Nat) : Binary64 :=
  if num = 0 then zero
  else
    let p := gridPower num den
    let m := roundHalfEven (num * Nat.pow 2 (-p).toNat) (den * Nat.pow 2 p.toNat)
    let word := (p + 1074).toNat * Nat.pow 2 52 + m
    if word < 2047 * Nat.pow 2 52 then ⟨word.toUInt64⟩ else infinity

/-- The number nearest to a natural number. -/
def ofNat (n : Nat) : Binary64 := ofRatio n 1

/-- The number nearest to the product of two finite numbers without a sign. -/
def times (x y : Binary64) : Binary64 :=
  ofRatio (x.numerator * y.numerator) (x.denominator * y.denominator)

/-- The number nearest to the quotient of two finite numbers without a sign; the second is
not zero. -/
def dividedBy (x y : Binary64) : Binary64 :=
  ofRatio (x.numerator * y.denominator) (x.denominator * y.numerator)

/-- The number nearest to a power of ten. -/
def powerOfTen (n : Nat) : Binary64 := ofNat (Nat.pow 10 n)

end Binary64

end ConfigSchema
