import ConfigSchema.Decimal.Shortest

/-!
# Laying out a decimal

A layout says how the shortest decimal of a number is written down: what happens at a tie,
for which leading exponents it is written positionally, and whether a positive exponent has
a sign otherwise. What is left is common to the layouts of this library: a positional
decimal has at least one digit after the point, and a decimal in scientific form has a point
only between digits and an exponent without leading zeros.
-/

namespace ConfigSchema

/-- How the shortest decimal of a number is written. -/
structure Layout where
  /-- Which of two equally near decimals is written. -/
  tie : Tie
  /-- The least leading exponent that is written positionally. -/
  least : Int
  /-- The greatest leading exponent that is written positionally. -/
  greatest : Int
  /-- An exponent that is not negative is written with a plus. -/
  plus : Bool

namespace Layout

/-- Digits with a point after the first `places` of them, padded with zeros where the point
lies outside; at least one digit follows the point. -/
def positional (digits : List Char) (places : Int) : List Char :=
  if places ≤ 0 then
    '0' :: '.' :: (List.replicate (-places).toNat '0' ++ digits)
  else
    let n := places.toNat
    let whole := digits.take n ++ List.replicate (n - digits.length) '0'
    let fraction := digits.drop n
    whole ++ '.' :: (if fraction.isEmpty then ['0'] else fraction)

/-- An exponent after its letter: the sign, then the digits. -/
def exponent (layout : Layout) (n : Int) : List Char :=
  (if n < 0 then ['-'] else if layout.plus then ['+'] else []) ++ Nat.toDigits 10 n.natAbs

/-- The first digit, a point if more digits follow, those, and the exponent. -/
def scientific (layout : Layout) (digits : List Char) (leading : Int) : List Char :=
  let rest := digits.drop 1
  digits.take 1 ++ (if rest.isEmpty then [] else '.' :: rest) ++
    'e' :: layout.exponent leading

/-- The text of a decimal without sign. Its digits do not end in a zero. -/
def decimal (layout : Layout) (d : Decimal) : List Char :=
  let digits := Nat.toDigits 10 d.digits
  let leading : Int := d.exponent + digits.length - 1
  if layout.least ≤ leading ∧ leading ≤ layout.greatest then
    positional digits (leading + 1)
  else layout.scientific digits leading

/-- **The text of a number**: the sign also of a zero, then the magnitude. What is not a
number is written without a sign. -/
def write (layout : Layout) (x : Binary64) : String :=
  let sign := if x.isNegative then ['-'] else []
  if x.isNaN then "NaN"
  else if x.isInfinite then String.ofList (sign ++ "inf".toList)
  else if x.isZero then String.ofList (sign ++ "0.0".toList)
  else String.ofList (sign ++ layout.decimal (Decimal.shortest layout.tie x))

end Layout

end ConfigSchema
