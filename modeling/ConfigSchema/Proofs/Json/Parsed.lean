import ConfigSchema.Json.Basic
import ConfigSchema.Proofs.Keyed

/-!
# Parsed documents

A tree has forgotten in which order the members of an object were written, and which members
have been replaced by later ones with the same key. A parsed document
(`ConfigSchema.Json.Parsed`) has not: the members of an object stand in the order of the text,
repeated keys included. Spacing and escapes are gone from it, too. So it can be said of it that
no object repeats a key (`ConfigSchema.Json.Parsed.Distinct`).
-/

namespace ConfigSchema.Json

/-- A document with all members that are written. -/
inductive Parsed where
  /-- The null value. -/
  | null
  /-- A truth value. -/
  | boolean (value : Bool)
  /-- A number. -/
  | number (value : Number)
  /-- A string. -/
  | string (value : String)
  /-- An array, its elements in order. -/
  | array (items : List Parsed)
  /-- An object, its members in the order in which they are written. -/
  | object (members : List (String × Parsed))

namespace Parsed

/-- The document is no array and no object. -/
def isScalar : Parsed → Bool
  | .array _ => false
  | .object _ => false
  | _ => true

mutual

/-- **The tree of a document**: of the members with one key the last one stays. -/
def tree : Parsed → Tree
  | .null => .null
  | .boolean value => .boolean value
  | .number value => .number value
  | .string value => .string value
  | .array items => .array (trees items)
  | .object members => .object (Keyed.ofList (entries members))

/-- The trees of the elements of an array. -/
def trees : List Parsed → List Tree
  | [] => []
  | w :: ws => tree w :: trees ws

/-- The members of an object with the trees of their values. -/
def entries : List (String × Parsed) → List (String × Tree)
  | [] => []
  | (key, w) :: members => (key, tree w) :: entries members

end

theorem trees_eq_map (items : List Parsed) : trees items = items.map tree := by
  induction items with
  | nil => rfl
  | cons w ws ih => rw [trees, ih, List.map_cons]

theorem entries_eq_map (members : List (String × Parsed)) :
    entries members = members.map fun m => (m.1, m.2.tree) := by
  induction members with
  | nil => rfl
  | cons m ms ih => rw [entries, ih, List.map_cons]

@[simp] theorem tree_array (items : List Parsed) :
    (array items).tree = .array (items.map tree) := by
  rw [tree, trees_eq_map]

/-- The members of an object that are left in its tree. -/
def lastEntries (members : List (String × Parsed)) : List (String × Tree) :=
  Keyed.ofList (members.map fun m => (m.1, m.2.tree))

@[simp] theorem tree_object (members : List (String × Parsed)) :
    (object members).tree = .object (lastEntries members) := by
  rw [tree, entries_eq_map, lastEntries]

/-- A member that is written last is inserted last. -/
theorem lastEntries_append (before : List (String × Parsed)) (key : String) (w : Parsed) :
    lastEntries (before ++ [(key, w)]) = Keyed.insert key w.tree (lastEntries before) := by
  rw [lastEntries, lastEntries, List.map_append]
  exact Keyed.ofList_append_singleton ..

/-- **No object repeats a key**, at any depth. -/
inductive Distinct : Parsed → Prop
  /-- There is no object in a scalar. -/
  | scalar {w : Parsed} (scalar : w.isScalar = true) : Distinct w
  /-- No element of an array has one. -/
  | array {items : List Parsed} (items_distinct : ∀ w ∈ items, Distinct w) :
    Distinct (.array items)
  /-- An object does not repeat a key, and neither do the values of its members. -/
  | object {members : List (String × Parsed)} (nodup : (members.map Prod.fst).Nodup)
      (values_distinct : ∀ m ∈ members, Distinct m.2) : Distinct (.object members)

theorem distinct_array_iff {items : List Parsed} :
    (array items).Distinct ↔ ∀ w ∈ items, w.Distinct := by
  constructor
  · intro h
    cases h with
    | scalar h => cases h
    | array hitems => exact hitems
  · exact .array

theorem distinct_object_iff {members : List (String × Parsed)} :
    (object members).Distinct ↔
      (members.map Prod.fst).Nodup ∧ ∀ m ∈ members, m.2.Distinct := by
  constructor
  · intro h
    cases h with
    | scalar h => cases h
    | object hnodup hvalues => exact ⟨hnodup, hvalues⟩
  · rintro ⟨hnodup, hvalues⟩
    exact .object hnodup hvalues

end Parsed

end ConfigSchema.Json
