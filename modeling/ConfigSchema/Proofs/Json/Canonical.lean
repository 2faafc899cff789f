import ConfigSchema.Proofs.Json.Numbers
import ConfigSchema.Proofs.Reading.Integers

/-!
# Trees with canonical numbers

An integer that is not below zero has its place among the natural numbers of a tree, and only
there. The type of trees does not say so: it has a second number five, among the negative
integers. A tree without such numbers is *canonical* (`ConfigSchema.Json.Tree.Canonical`), and
two canonical trees are the same exactly if they stand for the same document.

No other trees are ever met, since every tree that is read from a text is canonical
(`ConfigSchema.Json.Tree.canonical_of_readTree`).
-/

namespace ConfigSchema

namespace Json

/-- **A number is canonical**: what is kept as a negative integer is below zero. -/
def Number.Canonical : Number → Prop
  | .negative n => n < 0
  | _ => True

namespace Tree

/-- **The numbers of a tree are canonical**, at any depth. -/
inductive Canonical : Tree → Prop
  /-- The null value has no numbers. -/
  | null : Canonical .null
  /-- A truth value has none. -/
  | boolean (b : Bool) : Canonical (.boolean b)
  /-- A number is canonical itself. -/
  | number {n : Number} (canonical : n.Canonical) : Canonical (.number n)
  /-- A string has none. -/
  | string (s : String) : Canonical (.string s)
  /-- The elements of an array are canonical. -/
  | array {items : List Tree} (canonical : ∀ j ∈ items, Canonical j) : Canonical (.array items)
  /-- The values of the members of an object are canonical. -/
  | object {members : List (String × Tree)} (canonical : ∀ entry ∈ members, Canonical entry.2) :
    Canonical (.object members)

end Tree

end Json

/-! ### What is read is canonical -/

/-- The value of a literal is canonical: a literal with a minus has a negative value or a
floating point number. -/
theorem Reading.NumberLiteral.canonical_of_value {l : NumberLiteral} {n : Json.Number}
    (h : l.value = .ok n) : n.Canonical := by
  rcases value_cases h with ⟨hpositive, hmost, rfl⟩ | ⟨-, rfl⟩ | hfloat
  · have hmost : ofDigits l.whole ≤ 2 ^ 63 := hmost
    have hvalue : (Int64.ofInt (-(ofDigits l.whole : Int))).toInt = -(ofDigits l.whole : Int) :=
      Int64.toInt_ofInt_of_le (by omega) (by omega)
    refine Int64.lt_iff_toInt_lt.mpr ?_
    rw [hvalue, Int64.toInt_zero]
    omega
  · trivial
  · obtain ⟨x, rfl⟩ := exists_float_of_floatValue hfloat
    trivial

namespace Json.Tree

/-- A tree is canonical if its numbers are. -/
theorem AllNumbers.canonical {j : Tree} (h : j.AllNumbers Number.Canonical) : j.Canonical := by
  induction h with
  | null => exact .null
  | boolean b => exact .boolean b
  | number hn => exact .number hn
  | string s => exact .string s
  | array _ ih => exact .array ih
  | object _ ih => exact .object ih

/-- **Every tree that is read is canonical.** -/
theorem canonical_of_readTree {s : Reading.Input} {j : Tree} (h : Reading.readTree s = .ok j) :
    j.Canonical :=
  (allNumbers_of_literals (fun _ _ => Reading.NumberLiteral.canonical_of_value) h).canonical

end Json.Tree

end ConfigSchema
