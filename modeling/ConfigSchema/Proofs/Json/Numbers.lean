import ConfigSchema.Proofs.Keyed
import ConfigSchema.Proofs.Reading.Spelled

/-!
# The numbers of a tree that is read

A number gets into a tree in one way only: it is the value of a literal of the text. So what
holds of the values of all literals holds of all numbers of a tree that is read, at any depth
(`ConfigSchema.Json.Tree.allNumbers_of_literals`). The values of literals in turn are the integer
that is written, if 64 bits hold it, or a floating point number
(`ConfigSchema.Reading.NumberLiteral.value_cases`).
-/

namespace ConfigSchema

namespace Json.Tree

/-- **All numbers of a tree have a property**, at any depth. -/
inductive AllNumbers (P : Number → Prop) : Tree → Prop
  /-- The null value has no numbers. -/
  | null : AllNumbers P .null
  /-- A truth value has none. -/
  | boolean (b : Bool) : AllNumbers P (.boolean b)
  /-- A number has the property itself. -/
  | number {n : Number} (holds : P n) : AllNumbers P (.number n)
  /-- A string has none. -/
  | string (s : String) : AllNumbers P (.string s)
  /-- The numbers of the elements of an array have it. -/
  | array {items : List Tree} (holds : ∀ j ∈ items, AllNumbers P j) : AllNumbers P (.array items)
  /-- The numbers of the values of the members of an object have it. -/
  | object {members : List (String × Tree)} (holds : ∀ entry ∈ members, AllNumbers P entry.2) :
    AllNumbers P (.object members)

end Json.Tree

namespace Reading

open Json

/-! ### The value of a literal -/

/-- **The value of a literal** is a negative integer in the range of 64 bits with a sign, an
integer in the range of 64 bits without one, or what the literal is rounded to. -/
theorem NumberLiteral.value_cases {l : NumberLiteral} {n : Json.Number} (h : l.value = .ok n) :
    (0 < ofDigits l.whole ∧ ofDigits l.whole ≤ Nat.pow 2 63 ∧
      n = .negative (Int64.ofInt (-(ofDigits l.whole : Int)))) ∨
    (ofDigits l.whole < Nat.pow 2 64 ∧ n = .natural (ofDigits l.whole).toUInt64) ∨
    l.floatValue = .ok n := by
  rw [value] at h
  split at h
  · exact .inr (.inr h)
  split at h
  · split at h
    · next hrange => exact .inl ⟨hrange.1, hrange.2, (Except.ok.inj h).symm⟩
    · exact .inr (.inr h)
  · split at h
    · next hrange => exact .inr (.inl ⟨hrange, (Except.ok.inj h).symm⟩)
    · exact .inr (.inr h)

/-! ### From literals to trees -/

section Spelled

variable {P : Json.Number → Prop}

mutual

/-- The numbers of the tree of a document have every property that the values of literals have. -/
theorem Spelled.allNumbers_tree
    (hP : ∀ (l : NumberLiteral) (n : Json.Number), l.value = .ok n → P n) :
    ∀ w : Spelled, w.parsed.tree.AllNumbers P
  | .null => .null
  | .boolean b => .boolean b
  | .number n => .number (hP _ _ n.value_eq)
  | .string s => .string s
  | .array items => .array (Spelled.allNumbers_trees hP items)
  | .object members => .object fun entry hentry =>
    Spelled.allNumbers_entries hP members entry (Keyed.mem_of_mem_ofList hentry)

/-- So have those of the trees of elements. -/
theorem Spelled.allNumbers_trees
    (hP : ∀ (l : NumberLiteral) (n : Json.Number), l.value = .ok n → P n) :
    ∀ items : List Spelled, ∀ j ∈ Json.Parsed.trees (parsedItems items), j.AllNumbers P
  | [] => fun _ h => by cases h
  | w :: ws => List.forall_mem_cons.mpr ⟨allNumbers_tree hP w, allNumbers_trees hP ws⟩

/-- And those of the trees of the values of members. -/
theorem Spelled.allNumbers_entries
    (hP : ∀ (l : NumberLiteral) (n : Json.Number), l.value = .ok n → P n) :
    ∀ members : List (String × Spelled),
      ∀ entry ∈ Json.Parsed.entries (parsedMembers members), entry.2.AllNumbers P
  | [] => fun _ h => by cases h
  | (_, w) :: ms => List.forall_mem_cons.mpr ⟨allNumbers_tree hP w, allNumbers_entries hP ms⟩

end

end Spelled

end Reading

/-- **What holds of the values of all literals holds of all numbers of a tree that is read.** -/
theorem Json.Tree.allNumbers_of_literals {P : Json.Number → Prop} {s : Reading.Input}
    {j : Json.Tree}
    (hP : ∀ (l : Reading.NumberLiteral) (n : Json.Number), l.value = .ok n → P n)
    (h : Reading.readTree s = .ok j) : j.AllNumbers P := by
  rw [Reading.readTree_eq_map_readAll_spelled] at h
  obtain ⟨w, -, rfl⟩ := Outcome.map_eq_ok_iff.mp h
  exact w.allNumbers_tree hP

end ConfigSchema
