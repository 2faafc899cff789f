import ConfigSchema.Proofs.Binary64.Nearest
import ConfigSchema.Proofs.Json.Numbers
import ConfigSchema.Proofs.Value.Decoded
import ConfigSchema.Proofs.Value.Equality

/-!
# Floating point numbers that are read

The type of floating point numbers has words that are not numbers, but no text is read as one of
them. A literal is rounded, multiplied and divided, each time to the nearest number there is
(`ConfigSchema.Binary64.ofRatio`), and that is a number or an infinity, whatever the operands are;
a minus changes only the sign. So the trees that are read have numbers only
(`ConfigSchema.Json.Tree.allNumbers_of_readTree`), and the values of such trees equal themselves
(`ConfigSchema.Value.equal_self_ofJson`).
-/

namespace ConfigSchema

/-! ### Words that are numbers -/

namespace Binary64

/-- A word whose exponent bits are not all set is a number. -/
theorem isNaN_of_exponentBits_ne {x : Binary64} (h : x.exponentBits ≠ 2047) : x.isNaN = false := by
  rw [isNaN, beq_false_of_ne h, Bool.false_and]

/-- **Rounding gives a number**, or infinity. -/
theorem isNaN_ofRatio (num den : Nat) : (ofRatio num den).isNaN = false := by
  rw [ofRatio]
  split
  · decide
  · dsimp only
    split
    · next hword => exact isNaN_of_exponentBits_ne (exponentBits_ne_of_lt hword)
    · decide

/-- The other sign leaves exponent and fraction as they are. -/
theorem isNaN_negate (x : Binary64) : x.negate.isNaN = x.isNaN := by
  have hbits : x.negate.bits.toNat = x.bits.toNat ^^^ 2 ^ 63 := UInt64.toNat_xor ..
  have hexponent : x.negate.exponentBits = x.exponentBits := by
    rw [exponentBits, exponentBits, hbits]
    show (x.bits.toNat ^^^ 2 ^ 63) / 2 ^ 52 % 2 ^ 11 = x.bits.toNat / 2 ^ 52 % 2 ^ 11
    rw [Nat.xor_div_two_pow, Nat.xor_mod_two_pow]
    exact Nat.xor_zero _
  have hfraction : x.negate.fractionBits = x.fractionBits := by
    rw [fractionBits, fractionBits, hbits]
    show (x.bits.toNat ^^^ 2 ^ 63) % 2 ^ 52 = x.bits.toNat % 2 ^ 52
    rw [Nat.xor_mod_two_pow]
    exact Nat.xor_zero _
  rw [isNaN, isNaN, hexponent, hfraction]

end Binary64

namespace Reading.NumberLiteral

/-- Dividing by a power of ten gives a number. -/
theorem isNaN_divideByPowerOfTen {x : Binary64} {n : Nat} (hx : x.isNaN = false) :
    (divideByPowerOfTen x n).isNaN = false := by
  induction n using Nat.strongRecOn generalizing x with
  | ind n ih =>
    rw [divideByPowerOfTen]
    split
    · exact Binary64.isNaN_ofRatio _ _
    split
    · exact hx
    · exact ih (n - 308) (by omega) (Binary64.isNaN_ofRatio _ _)

/-- The magnitude of digits with a power of ten is a number. -/
theorem isNaN_of_magnitude {significand : Nat} {exponent : Int} {x : Binary64}
    (h : magnitude significand exponent = .ok x) : x.isNaN = false := by
  have hsignificand : (Binary64.ofNat significand).isNaN = false := Binary64.isNaN_ofRatio _ _
  rw [magnitude] at h
  split at h
  · split at h <;> cases h
    exact hsignificand
  split at h
  · dsimp only at h
    split at h <;> cases h
    exact Binary64.isNaN_ofRatio _ _
  · cases h
    exact isNaN_divideByPowerOfTen hsignificand

/-- The magnitude of a literal is a number. -/
theorem isNaN_of_floatMagnitude {l : NumberLiteral} {x : Binary64}
    (h : l.floatMagnitude = .ok x) : x.isNaN = false := by
  rw [floatMagnitude] at h
  dsimp only at h
  split at h
  · exact isNaN_of_magnitude h
  split at h
  · split at h <;> cases h
    decide
  · exact isNaN_of_magnitude h

end Reading.NumberLiteral

/-! ### Trees of numbers -/

namespace Json

/-- **A number of a tree is a number**: it is an integer, or a word that is one. -/
def Number.IsNumber : Number → Prop
  | .float x => x.isNaN = false
  | _ => True

end Json

/-- What a literal is rounded to is a number. -/
theorem Reading.NumberLiteral.isNumber_of_floatValue {l : NumberLiteral} {n : Json.Number}
    (h : l.floatValue = .ok n) : n.IsNumber := by
  obtain ⟨x, hx, hn⟩ := Outcome.bind_eq_ok_iff.mp h
  cases hn
  have hmagnitude := isNaN_of_floatMagnitude hx
  show (if l.negative then x.negate else x).isNaN = false
  split
  · rw [Binary64.isNaN_negate, hmagnitude]
  · exact hmagnitude

/-- The value of a literal is a number. -/
theorem Reading.NumberLiteral.isNumber_of_value {l : NumberLiteral} {n : Json.Number}
    (h : l.value = .ok n) : n.IsNumber := by
  rcases value_cases h with ⟨-, -, rfl⟩ | ⟨-, rfl⟩ | hfloat
  · trivial
  · trivial
  · exact isNumber_of_floatValue hfloat

/-- **The numbers of a tree that is read are numbers.** -/
theorem Json.Tree.allNumbers_of_readTree {s : Reading.Input} {j : Json.Tree}
    (h : Reading.readTree s = .ok j) : j.AllNumbers Json.Number.IsNumber :=
  allNumbers_of_literals (fun _ _ => Reading.NumberLiteral.isNumber_of_value) h

/-! ### Their values -/

namespace Value

theorem floatsInItems_eq_flatMap (items : List Value) :
    floatsInItems items = items.flatMap floatsIn := by
  induction items with
  | nil => rfl
  | cons v rest ih => rw [floatsInItems, ih, List.flatMap_cons]

theorem floatsInEntries_eq_flatMap (entries : List (String × Value)) :
    floatsInEntries entries = entries.flatMap fun entry => entry.2.floatsIn := by
  induction entries with
  | nil => rfl
  | cons entry rest ih => rw [floatsInEntries, ih, List.flatMap_cons]

/-- The floating point numbers in the value of a tree of numbers are numbers. -/
theorem isNaN_of_mem_floatsIn_ofJson {j : Json.Tree} (h : j.AllNumbers Json.Number.IsNumber) :
    ∀ x ∈ (ofJson j).floatsIn, x.isNaN = false := by
  induction h with
  | null => exact fun _ hx => by cases hx
  | boolean => exact fun _ hx => by cases hx
  | string => exact fun _ hx => by cases hx
  | @number n hn =>
    cases n with
    | float x => exact fun y hy => List.mem_singleton.mp hy ▸ hn
    | negative => exact fun _ hx => by cases hx
    | natural =>
      intro x hx
      rw [ofJson, ofNumber] at hx
      split at hx <;> cases hx
  | array _ ih =>
    intro x hx
    rw [ofJson, floatsIn, floatsInItems_eq_flatMap, ofItems_eq_map, List.flatMap_map] at hx
    obtain ⟨j, hj, hx⟩ := List.mem_flatMap.mp hx
    exact ih j hj x hx
  | object _ ih =>
    intro x hx
    rw [ofJson, floatsIn, floatsInEntries_eq_flatMap, ofMembers_eq_map, List.flatMap_map] at hx
    obtain ⟨entry, hentry, hx⟩ := List.mem_flatMap.mp hx
    exact ih entry hentry x hx

/-- **The value of a tree of numbers equals itself.** -/
theorem equal_self_ofJson {j : Json.Tree} (h : j.AllNumbers Json.Number.IsNumber) :
    (ofJson j).equal (ofJson j) = true :=
  equal_self_iff.mpr (isNaN_of_mem_floatsIn_ofJson h)

end Value

end ConfigSchema
