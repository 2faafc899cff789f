import ConfigSchema.Json.Basic
import ConfigSchema.Proofs.Keyed

/-!
# Ordered trees

The members of an object are meant to be sorted by key, each key once. A tree in which they
are, in every object at every depth, is *ordered* (`ConfigSchema.Json.Tree.Ordered`): it is
the one tree that stands for its document.
-/

namespace ConfigSchema.Json.Tree

/-- **The members of every object in a tree are sorted by key.** -/
inductive Ordered : Tree → Prop
  /-- The null value has no members. -/
  | null : Ordered .null
  /-- A truth value has no members. -/
  | boolean (b : Bool) : Ordered (.boolean b)
  /-- A number has no members. -/
  | number (n : Number) : Ordered (.number n)
  /-- A string has no members. -/
  | string (s : String) : Ordered (.string s)
  /-- An array is ordered if its elements are. -/
  | array {items : List Tree} (ordered : ∀ j ∈ items, Ordered j) : Ordered (.array items)
  /-- An object is ordered if its members are sorted, and their values ordered. -/
  | object {members : List (String × Tree)} (sorted : Keyed.Sorted members)
      (ordered : ∀ entry ∈ members, Ordered entry.2) : Ordered (.object members)

/-- An object stays ordered when an ordered value is inserted. -/
theorem Ordered.insert {key : String} {value : Tree} {members : List (String × Tree)}
    (h : Ordered (.object members)) (hvalue : Ordered value) :
    Ordered (.object (Keyed.insert key value members)) := by
  cases h with
  | object hsorted hmembers =>
    refine .object hsorted.insert fun entry hentry => ?_
    rcases Keyed.mem_insert hentry with rfl | hentry
    · exact hvalue
    · exact hmembers entry hentry

end ConfigSchema.Json.Tree
