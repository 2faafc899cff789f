/-!
# Binary floating point numbers of 64 bits

A number is its word: a sign bit, eleven exponent bits and fifty-two fraction bits. No
operation here is the machine's; each is computed on the word or in exact integers, so a
statement about it is a statement about natural numbers. A word that encodes “not a
number” is kept with all its bits.

Two notions of equality live side by side. Equality of the type is equality of words. The
numeric comparison `ConfigSchema.Binary64.equal` holds between the two zeros and between no
word and itself if that word is not a number; on all other words it is an equivalence
(`ConfigSchema.Binary64.equal_self`, `ConfigSchema.Binary64.equal_comm`,
`ConfigSchema.Binary64.equal_trans`).
-/

namespace ConfigSchema

/-- A binary floating point number of 64 bits, given by its word. -/
structure Binary64 where
  /-- The word: sign, exponent and fraction, from the highest bit down. -/
  bits : UInt64
  deriving DecidableEq, Repr, Inhabited

namespace Binary64

/-! ### The parts of a word -/

/-- The sign bit is set. -/
def isNegative (x : Binary64) : Bool := Nat.pow 2 63 ≤ x.bits.toNat

/-- The eleven exponent bits. -/
def exponentBits (x : Binary64) : Nat := x.bits.toNat / Nat.pow 2 52 % Nat.pow 2 11

/-- The fifty-two fraction bits. -/
def fractionBits (x : Binary64) : Nat := x.bits.toNat % Nat.pow 2 52

/-- The exponent bits are all set and the fraction is not empty: not a number. -/
def isNaN (x : Binary64) : Bool := x.exponentBits == 2047 && x.fractionBits != 0

/-- The exponent bits are all set and the fraction is empty. -/
def isInfinite (x : Binary64) : Bool := x.exponentBits == 2047 && x.fractionBits == 0

/-- One of the two zeros. -/
def isZero (x : Binary64) : Bool := x.exponentBits == 0 && x.fractionBits == 0

/-- The zero without a sign. -/
def zero : Binary64 := ⟨0⟩

/-- The infinity above all numbers. -/
def infinity : Binary64 := ⟨0x7ff0000000000000⟩

/-- The number with the other sign. -/
def negate (x : Binary64) : Binary64 := ⟨x.bits ^^^ 0x8000000000000000⟩

/-! ### The exact value of a finite number -/

/-- The integer significand: the fraction, with the leading bit that a normal number does
not write. -/
def significand (x : Binary64) : Nat :=
  if x.exponentBits = 0 then x.fractionBits else Nat.pow 2 52 + x.fractionBits

/-- The power of two that the significand is multiplied by. -/
def power (x : Binary64) : Int := (max x.exponentBits 1 : Nat) - 1075

/-- The numerator of the magnitude of a finite number. -/
def numerator (x : Binary64) : Nat := x.significand * Nat.pow 2 x.power.toNat

/-- The denominator of the magnitude of a finite number. -/
def denominator (x : Binary64) : Nat := Nat.pow 2 (-x.power).toNat

/-! ### Comparison -/

/-- Numeric equality: a word that is not a number equals nothing, and the two zeros are
equal. -/
def equal (x y : Binary64) : Bool :=
  !x.isNaN && !y.isNaN && (x == y || (x.isZero && y.isZero))

/-- Numeric equality does not depend on the order. -/
theorem equal_comm (x y : Binary64) : x.equal y = y.equal x := by
  simp only [equal, Bool.and_left_comm, Bool.and_assoc, Bool.and_comm x.isZero,
    Bool.beq_comm (a := x) (b := y)]

/-- **A number equals itself unless it is not a number.** -/
theorem equal_self (x : Binary64) : x.equal x = !x.isNaN := by
  simp [equal]

/-- Two numbers that equal a third one are equal: the third is a number, and at most one
zero can stand for the other. -/
theorem equal_trans {x y z : Binary64} (hxy : x.equal y = true) (hyz : y.equal z = true) :
    x.equal z = true := by
  simp only [equal, Bool.and_eq_true, Bool.or_eq_true, beq_iff_eq, Bool.not_eq_true'] at *
  obtain ⟨⟨hx, -⟩, hxy⟩ := hxy
  obtain ⟨⟨-, hz⟩, hyz⟩ := hyz
  refine ⟨⟨hx, hz⟩, ?_⟩
  rcases hxy with rfl | ⟨hx0, hy0⟩
  · exact hyz
  · rcases hyz with rfl | ⟨-, hz0⟩
    · exact Or.inr ⟨hx0, hy0⟩
    · exact Or.inr ⟨hx0, hz0⟩

end Binary64

end ConfigSchema
