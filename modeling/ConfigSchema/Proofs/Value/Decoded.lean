import ConfigSchema.Value.Decode

/-!
# Values of arrays and objects

The value of an array is the list of the values of its elements
(`ConfigSchema.Value.ofItems_eq_map`), and the value of an object has at each key the value of
the member there (`ConfigSchema.Value.get?_ofMembers`).
-/

namespace ConfigSchema.Value

/-- The values of the elements of an array, one by one. -/
theorem ofItems_eq_map (items : List Json.Tree) : ofItems items = items.map ofJson := by
  induction items with
  | nil => rfl
  | cons j rest ih => rw [ofItems, ih, List.map_cons]

/-- The values of the members of an object, one by one. -/
theorem ofMembers_eq_map (members : List (String × Json.Tree)) :
    ofMembers members = members.map fun member => (member.1, ofJson member.2) := by
  induction members with
  | nil => rfl
  | cons member rest ih => rw [ofMembers, ih, List.map_cons]

/-- The value of an object has at a key the value of the member. -/
theorem get?_ofMembers (key : String) (members : List (String × Json.Tree)) :
    Keyed.get? key (ofMembers members) = (Keyed.get? key members).map ofJson := by
  induction members with
  | nil => rfl
  | cons member rest ih =>
    obtain ⟨k, j⟩ := member
    rw [ofMembers, Keyed.get?, Keyed.get?, ih]
    split <;> rfl

end ConfigSchema.Value
