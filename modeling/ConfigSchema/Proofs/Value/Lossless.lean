import ConfigSchema.Integration
import ConfigSchema.Proofs.Json.Canonical

/-!
# What the decoder loses

The decoder has no value for an integer above the range of 64 bits with sign, and keeps all of
them as one unsupported value. Everything else of a tree can be told from its value. To say so,
the tree is *marked*: one of those integers is put in the place of each of them
(`ConfigSchema.Json.Tree.marked`). A value is turned back into a tree by
`ConfigSchema.Value.toJson`, and what comes back of a canonical tree is the marked one
(`ConfigSchema.Value.toJson_ofJson`). Hence two trees are decoded to one value exactly if they are
the same once they are marked (`ConfigSchema.Value.ofJson_eq_ofJson_iff`).

Nothing is made up either. Whatever stands inside the value of a tree is the value of a tree
(`ConfigSchema.Value.exists_of_inside_ofJson`), so there is no list with a fixed element kind in
it, and nothing unsupported but those integers.
-/

namespace ConfigSchema

/-! ### Marked trees -/

namespace Json

/-- The greatest integer of 64 bits without a sign. It stands for all that are above the range
of 64 bits with sign. -/
def Number.tooLarge : Number := .natural 0xffffffffffffffff

/-- **The number with every integer that is too large replaced by one of them.** -/
def Number.marked : Number → Number
  | .natural n => if n.toNat < Nat.pow 2 63 then .natural n else .tooLarge
  | n => n

namespace Tree

mutual

/-- **The tree with every integer that is too large replaced by one of them**, at any depth. -/
def marked : Tree → Tree
  | .null => .null
  | .boolean b => .boolean b
  | .number n => .number n.marked
  | .string s => .string s
  | .array items => .array (markedItems items)
  | .object members => .object (markedMembers members)

/-- The marked elements of an array. -/
def markedItems : List Tree → List Tree
  | [] => []
  | j :: rest => marked j :: markedItems rest

/-- The members of an object with their values marked. -/
def markedMembers : List (String × Tree) → List (String × Tree)
  | [] => []
  | (k, j) :: rest => (k, marked j) :: markedMembers rest

end

theorem markedItems_eq_map (items : List Tree) : markedItems items = items.map marked := by
  induction items with
  | nil => rfl
  | cons j rest ih => rw [markedItems, ih, List.map_cons]

theorem markedMembers_eq_map (members : List (String × Tree)) :
    markedMembers members = members.map fun m => (m.1, m.2.marked) := by
  induction members with
  | nil => rfl
  | cons m rest ih => rw [markedMembers, ih, List.map_cons]

end Tree

end Json

namespace Value

/-! ### From values back to trees -/

mutual

/-- **The tree that a value is turned back into.** What is unsupported becomes the integer that
is too large. A list with a fixed element kind is the value of no tree, and becomes the null
value. -/
def toJson : Value → Json.Tree
  | .null => .null
  | .boolean b => .boolean b
  | .integer n => .number (if n < 0 then .negative n else .natural n.toUInt64)
  | .float x => .number (.float x)
  | .string s => .string s
  | .list items => .array (toItems items)
  | .map entries => .object (toMembers entries)
  | .unsupported _ => .number .tooLarge
  | .typedList _ => .null

/-- The trees of the elements of a list. -/
def toItems : List Value → List Json.Tree
  | [] => []
  | v :: rest => toJson v :: toItems rest

/-- The members of the object that a map is turned back into. -/
def toMembers : List (String × Value) → List (String × Json.Tree)
  | [] => []
  | (k, v) :: rest => (k, toJson v) :: toMembers rest

end

theorem toItems_eq_map (items : List Value) : toItems items = items.map toJson := by
  induction items with
  | nil => rfl
  | cons v rest ih => rw [toItems, ih, List.map_cons]

theorem toMembers_eq_map (entries : List (String × Value)) :
    toMembers entries = entries.map fun entry => (entry.1, entry.2.toJson) := by
  induction entries with
  | nil => rfl
  | cons entry rest ih => rw [toMembers, ih, List.map_cons]

/-- An integer without a sign that the range with sign holds is not below zero in it. -/
theorem not_toInt64_lt_zero {n : UInt64} (h : n.toNat < Nat.pow 2 63) : ¬ n.toInt64 < 0 := by
  have htwice : 2 * n.toNat < 2 ^ 64 := by
    simp only [Nat.pow_eq] at h
    omega
  have hvalue : n.toInt64.toInt = n.toNat := BitVec.toInt_eq_toNat_of_lt htwice
  rw [Int64.lt_iff_toInt_lt, hvalue, Int64.toInt_zero]
  omega

/-- A number comes back marked. -/
theorem toJson_ofNumber {n : Json.Number} (h : n.Canonical) :
    (ofNumber n).toJson = .number n.marked := by
  cases n with
  | natural n =>
    rw [ofNumber, Json.Number.marked]
    split
    · next hsmall =>
      rw [toJson, if_neg (not_toInt64_lt_zero hsmall), UInt64.toUInt64_toInt64]
    · rfl
  | negative n =>
    have hbelow : n < 0 := h
    rw [ofNumber, toJson, if_pos hbelow]
    rfl
  | float x => rfl

/-- **A tree comes back marked.** -/
theorem toJson_ofJson {j : Json.Tree} (h : j.Canonical) : (ofJson j).toJson = j.marked := by
  induction h with
  | null => rfl
  | boolean b => rfl
  | number hn => exact toJson_ofNumber hn
  | string s => rfl
  | array _ ih =>
    rw [ofJson, toJson, Json.Tree.marked, ofItems_eq_map, toItems_eq_map,
      Json.Tree.markedItems_eq_map, List.map_map]
    exact congrArg _ (List.map_congr_left ih)
  | object _ ih =>
    rw [ofJson, toJson, Json.Tree.marked, ofMembers_eq_map, toMembers_eq_map,
      Json.Tree.markedMembers_eq_map, List.map_map]
    exact congrArg _ (List.map_congr_left fun m hm => congrArg (Prod.mk m.1) (ih m hm))

/-! ### What is lost -/

/-- Marking a number does not change its value. -/
theorem ofNumber_marked (n : Json.Number) : ofNumber n.marked = ofNumber n := by
  cases n with
  | natural n =>
    rw [Json.Number.marked]
    split
    · rfl
    · next hlarge => rw [ofNumber, if_neg hlarge]; rfl
  | _ => rfl

mutual

/-- Marking a tree does not change its value. -/
theorem ofJson_marked : ∀ j : Json.Tree, ofJson j.marked = ofJson j
  | .null => rfl
  | .boolean _ => rfl
  | .number n => ofNumber_marked n
  | .string _ => rfl
  | .array items => congrArg Value.list (ofItems_marked items)
  | .object members => congrArg Value.map (ofMembers_marked members)

/-- Neither does marking the elements of an array. -/
theorem ofItems_marked : ∀ items : List Json.Tree,
    ofItems (Json.Tree.markedItems items) = ofItems items
  | [] => rfl
  | j :: rest => by
    rw [Json.Tree.markedItems, ofItems, ofItems, ofJson_marked j, ofItems_marked rest]

/-- Nor the values of the members of an object. -/
theorem ofMembers_marked : ∀ members : List (String × Json.Tree),
    ofMembers (Json.Tree.markedMembers members) = ofMembers members
  | [] => rfl
  | (key, j) :: rest => by
    rw [Json.Tree.markedMembers, ofMembers, ofMembers, ofJson_marked j, ofMembers_marked rest]

end

/-- **Two trees are decoded to one value** exactly if they are the same once the integers that
are too large are marked. -/
theorem ofJson_eq_ofJson_iff {i j : Json.Tree} (hi : i.Canonical) (hj : j.Canonical) :
    ofJson i = ofJson j ↔ i.marked = j.marked := by
  constructor
  · intro h
    rw [← toJson_ofJson hi, h, toJson_ofJson hj]
  · intro h
    rw [← ofJson_marked i, h, ofJson_marked j]

/-- Of trees that are read from texts this holds without a condition. -/
theorem ofJson_eq_ofJson_iff_of_readTree {s t : Reading.Input} {i j : Json.Tree}
    (hs : Reading.readTree s = .ok i) (ht : Reading.readTree t = .ok j) :
    ofJson i = ofJson j ↔ i.marked = j.marked :=
  ofJson_eq_ofJson_iff (Json.Tree.canonical_of_readTree hs) (Json.Tree.canonical_of_readTree ht)

/-! ### What is made up -/

/-- **A value stands inside a value**: it is the whole, or it stands inside an element of a list
or inside the value of an entry of a map. -/
inductive Inside (v : Value) : Value → Prop
  /-- The whole stands inside itself. -/
  | whole : Inside v v
  /-- What stands inside an element stands inside the list. -/
  | item {items : List Value} {w : Value} (mem : w ∈ items) (inside : Inside v w) :
    Inside v (.list items)
  /-- What stands inside the value of an entry stands inside the map. -/
  | entry {entries : List (String × Value)} {key : String} {w : Value}
      (mem : (key, w) ∈ entries) (inside : Inside v w) : Inside v (.map entries)

/-- The value of a number is an integer, a floating point number, or the unsupported value for
the integers that are too large. -/
theorem ofNumber_cases (n : Json.Number) :
    (∃ i, ofNumber n = .integer i) ∨ (∃ x, ofNumber n = .float x) ∨
      ofNumber n = .unsupported unsignedInteger := by
  cases n with
  | natural n =>
    rw [ofNumber]
    split
    · exact Or.inl ⟨_, rfl⟩
    · exact Or.inr (Or.inr rfl)
  | negative n => exact Or.inl ⟨n, rfl⟩
  | float x => exact Or.inr (Or.inl ⟨x, rfl⟩)

/-- Only an array is decoded to a list. -/
theorem ofJson_eq_list_iff {j : Json.Tree} {items : List Value} :
    ofJson j = .list items ↔ ∃ trees, j = .array trees ∧ items = trees.map ofJson := by
  cases j with
  | number n => rcases ofNumber_cases n with ⟨i, h⟩ | ⟨x, h⟩ | h <;> simp [ofJson, h]
  | array trees => simp [ofJson, ofItems_eq_map, eq_comm]
  | _ => simp [ofJson]

/-- Only an object is decoded to a map. -/
theorem ofJson_eq_map_iff {j : Json.Tree} {entries : List (String × Value)} :
    ofJson j = .map entries ↔ ∃ members, j = .object members ∧
      entries = members.map fun member => (member.1, ofJson member.2) := by
  cases j with
  | number n => rcases ofNumber_cases n with ⟨i, h⟩ | ⟨x, h⟩ | h <;> simp [ofJson, h]
  | object members => simp [ofJson, ofMembers_eq_map, eq_comm]
  | _ => simp [ofJson]

/-- **Whatever stands inside the value of a tree is the value of a tree.** -/
theorem exists_of_inside_ofJson {v : Value} {j : Json.Tree} (h : v.Inside (ofJson j)) :
    ∃ i : Json.Tree, v = ofJson i := by
  generalize hw : ofJson j = w at h
  induction h generalizing j with
  | whole => exact ⟨j, hw.symm⟩
  | item hmem _ ih =>
    obtain ⟨trees, -, rfl⟩ := ofJson_eq_list_iff.mp hw
    obtain ⟨i, -, hi⟩ := List.mem_map.mp hmem
    exact ih hi
  | entry hmem _ ih =>
    obtain ⟨members, -, rfl⟩ := ofJson_eq_map_iff.mp hw
    obtain ⟨member, -, hi⟩ := List.mem_map.mp hmem
    exact ih (Prod.mk.inj hi).2

/-- No tree has a list with a fixed element kind for its value. -/
theorem ofJson_ne_typedList (j : Json.Tree) (items : TypedList) : ofJson j ≠ .typedList items := by
  cases j with
  | number n => rcases ofNumber_cases n with ⟨i, h⟩ | ⟨x, h⟩ | h <;> simp [ofJson, h]
  | _ => simp [ofJson]

/-- A tree whose value is unsupported is an integer that is too large. -/
theorem eq_unsignedInteger_of_ofJson {j : Json.Tree} {name : String}
    (h : ofJson j = .unsupported name) : name = unsignedInteger := by
  cases j with
  | number n =>
    rw [ofJson] at h
    rcases ofNumber_cases n with ⟨i, hn⟩ | ⟨x, hn⟩ | hn
    · cases hn.symm.trans h
    · cases hn.symm.trans h
    · exact (Value.unsupported.inj (hn.symm.trans h)).symm
  | _ => cases h

end Value

/-! ### Payloads and configurations of trees -/

variable {j : Json.Tree} {schema : Schema} {payload : Payload}

/-- The payload of a tree is the map that the tree is decoded to. -/
theorem Payload.ofJson?_eq_some_iff :
    Payload.ofJson? j = some payload ↔ Value.ofJson j = .map payload :=
  Value.entries?_eq_some_iff

/-- **Only an object has a payload.** -/
theorem Payload.exists_ofJson?_iff :
    (∃ payload, Payload.ofJson? j = some payload) ↔ ∃ members, j = .object members := by
  simp only [Payload.ofJson?_eq_some_iff, Value.ofJson_eq_map_iff]
  constructor
  · rintro ⟨_, members, hj, -⟩
    exact ⟨members, hj⟩
  · rintro ⟨members, hj⟩
    exact ⟨_, members, hj, rfl⟩

/-- A tree with a payload is made a configuration as its payload is. -/
theorem Configuration.ofJson_of_eq_some (h : Payload.ofJson? j = some payload) :
    Configuration.ofJson j schema = Configuration.create payload schema := by
  rw [Configuration.ofJson, Payload.ofJson?_eq_some_iff.mp h]

/-- A tree without a payload is refused for its kind. -/
theorem Configuration.ofJson_of_eq_none (h : Payload.ofJson? j = none) :
    Configuration.ofJson j schema = .error (.notAnObject (Value.ofJson j).kind) := by
  have hmap : ∀ entries, Value.ofJson j ≠ .map entries := by
    intro entries hentries
    rw [Payload.ofJson?_eq_some_iff.mpr hentries] at h
    cases h
  rw [Configuration.ofJson]
  split
  · next entries hentries => exact absurd hentries (hmap entries)
  · rfl

/-! ### The main statement -/

/-- **The decoder loses nothing, and makes nothing up.**

* Two canonical trees are decoded to one value exactly if they are the same once every integer
  above the range of 64 bits with sign is replaced by one of them.
* Nothing that stands inside the value of a tree, at any depth, is a list with a fixed element
  kind, and whatever is unsupported there is such an integer.
* Exactly the objects have a payload. A tree with a payload is made a configuration as its
  payload is, and any other tree is refused for the kind of its value, whatever the schema
  is. -/
theorem Value.ofJson_loses_nothing :
    (∀ i j : Json.Tree, i.Canonical → j.Canonical →
      (ofJson i = ofJson j ↔ i.marked = j.marked)) ∧
    ∀ j : Json.Tree,
      (∀ v : Value, v.Inside (ofJson j) →
        (∀ items, v ≠ .typedList items) ∧
          ∀ name, v = .unsupported name → name = unsignedInteger) ∧
      ((∃ payload, Payload.ofJson? j = some payload) ↔ ∃ members, j = .object members) ∧
      ∀ schema : Schema,
        (∀ payload, Payload.ofJson? j = some payload →
          Configuration.ofJson j schema = Configuration.create payload schema) ∧
        (Payload.ofJson? j = none →
          Configuration.ofJson j schema = .error (.notAnObject (ofJson j).kind)) := by
  refine ⟨fun i j hi hj => ofJson_eq_ofJson_iff hi hj, fun j => ⟨fun v hv => ?_,
    Payload.exists_ofJson?_iff, fun schema => ⟨fun payload => Configuration.ofJson_of_eq_some,
      Configuration.ofJson_of_eq_none⟩⟩⟩
  obtain ⟨i, rfl⟩ := exists_of_inside_ofJson hv
  exact ⟨ofJson_ne_typedList i, fun name hname => eq_unsignedInteger_of_ofJson hname⟩

/-- A document with one number in it. -/
def Json.Tree.singleNumber (n : Json.Number) : Json.Tree :=
  .object [("counters", .array [.number n, .null])]

theorem Json.Tree.canonical_singleNumber {n : Json.Number} (h : n.Canonical) :
    (Json.Tree.singleNumber n).Canonical := by
  refine .object fun entry hentry => ?_
  obtain rfl := List.mem_singleton.mp hentry
  refine .array (List.forall_mem_cons.mpr ⟨.number h, ?_⟩)
  exact List.forall_mem_singleton.mpr .null

/-- The two ends of the range of integers that are too large are decoded alike; the integer and
the floating point number one, and the two integers at the ends of the range with sign, are
not. -/
theorem Value.ofJson_loses_nothing_counter :
    let least := Json.Tree.singleNumber (.natural 0x8000000000000000)
    let greatest := Json.Tree.singleNumber (.natural 0xffffffffffffffff)
    let one := Json.Tree.singleNumber (.natural 1)
    let oneAsFloat := Json.Tree.singleNumber (.float ⟨0x3ff0000000000000⟩)
    least.Canonical ∧ greatest.Canonical ∧ one.Canonical ∧ oneAsFloat.Canonical ∧
      ofJson least = ofJson greatest ∧ ofJson one ≠ ofJson oneAsFloat ∧
      Configuration.ofJson (.array [one]) [] = .error (.notAnObject .list) := by
  intro least greatest one oneAsFloat
  have hleast : least.Canonical := Json.Tree.canonical_singleNumber trivial
  have hgreatest : greatest.Canonical := Json.Tree.canonical_singleNumber trivial
  have hone : one.Canonical := Json.Tree.canonical_singleNumber trivial
  have hfloat : oneAsFloat.Canonical := Json.Tree.canonical_singleNumber trivial
  obtain ⟨hsame, hparts⟩ := ofJson_loses_nothing
  refine ⟨hleast, hgreatest, hone, hfloat, (hsame _ _ hleast hgreatest).mpr rfl, fun h => ?_,
    ((hparts (.array [one])).2.2 []).2 rfl⟩
  have hmarked : one.marked = oneAsFloat.marked := (hsame _ _ hone hfloat).mp h
  cases hmarked

end ConfigSchema
