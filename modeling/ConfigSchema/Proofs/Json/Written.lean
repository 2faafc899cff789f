import ConfigSchema.Json.Basic
import ConfigSchema.Json.Writer

/-!
# Written documents

Everything that the library writes is put together from truth values, strings, arrays and
objects. A document of this kind (`ConfigSchema.Json.Written`) is more than the tree that is
read from it, since its members stand in the order in which they are written; and it can be
taken as a text, as a tree, and as the number of brackets around its innermost part. All
three are folds, so each of them needs to be told only what to make of the parts.

Statements about the reading of what was written are proved along
`ConfigSchema.Json.Written.induction`.
-/

namespace ConfigSchema.Json

/-- A document as the library writes it. -/
inductive Written where
  /-- A truth value. -/
  | boolean (value : Bool)
  /-- A string. -/
  | string (value : String)
  /-- An array, its elements in order. -/
  | array (items : List Written)
  /-- An object, its members in the order in which they are written. -/
  | object (members : List (String × Written))

/-- Of separated parts all but the first have a comma before them. -/
theorem separated_cons (part : List Char) (parts : List (List Char)) :
    separated (part :: parts) = part ++ parts.flatMap fun p => ',' :: p := by
  induction parts generalizing part with
  | nil => rw [separated, List.flatMap_nil, List.append_nil]
  | cons p ps ih =>
    rw [separated, ih, List.flatMap_cons]
    · rfl
    · intro h
      cases h

/-- The largest of some numbers, zero if there are none. -/
def deepest (depths : List Nat) : Nat := depths.foldr max 0

namespace Written

variable {β : Type}

/-! ### Folds -/

section Fold

variable (boolean : Bool → β) (string : String → β) (array : List β → β)
  (object : List (String × β) → β)

mutual

/-- What is made of a document, given what is made of its parts. -/
def fold : Written → β
  | .boolean b => boolean b
  | .string s => string s
  | .array items => array (foldItems items)
  | .object members => object (foldMembers members)

/-- What is made of the elements of an array. -/
def foldItems : List Written → List β
  | [] => []
  | w :: ws => fold w :: foldItems ws

/-- What is made of the members of an object. -/
def foldMembers : List (String × Written) → List (String × β)
  | [] => []
  | (key, w) :: members => (key, fold w) :: foldMembers members

end

/-- The elements of an array are folded one by one. -/
theorem foldItems_eq_map (items : List Written) :
    foldItems boolean string array object items =
      items.map (fold boolean string array object) := by
  induction items with
  | nil => rfl
  | cons w ws ih => rw [foldItems, ih, List.map_cons]

/-- The members of an object are folded one by one. -/
theorem foldMembers_eq_map (members : List (String × Written)) :
    foldMembers boolean string array object members =
      members.map fun m => (m.1, fold boolean string array object m.2) := by
  induction members with
  | nil => rfl
  | cons m ms ih => rw [foldMembers, ih, List.map_cons]

end Fold

/-- The text of a document. -/
def text : Written → List Char :=
  fold writeBoolean writeString writeArray fun members =>
    writeObject (members.map fun m => writeMember m.1 m.2)

/-- The tree of a document. -/
def tree : Written → Tree :=
  fold .boolean .string .array fun members => .object (Keyed.ofList members)

/-- How deep arrays and objects are nested in a document. -/
def nesting : Written → Nat :=
  fold (fun _ => 0) (fun _ => 0) (fun items => deepest items + 1) fun members =>
    deepest (members.map Prod.snd) + 1

/-! ### Texts, trees and nesting of the parts -/

@[simp] theorem text_boolean (b : Bool) : (boolean b).text = writeBoolean b := rfl

@[simp] theorem text_string (s : String) : (string s).text = writeString s := rfl

@[simp] theorem text_array (items : List Written) :
    (array items).text = writeArray (items.map text) :=
  congrArg writeArray (foldItems_eq_map ..)

@[simp] theorem text_object (members : List (String × Written)) :
    (object members).text = writeObject (members.map fun m => writeMember m.1 m.2.text) := by
  have h := foldMembers_eq_map writeBoolean writeString writeArray
    (fun members => writeObject (members.map fun m => writeMember m.1 m.2)) members
  rw [text, fold, h, List.map_map]
  rfl

@[simp] theorem tree_boolean (b : Bool) : (boolean b).tree = .boolean b := rfl

@[simp] theorem tree_string (s : String) : (string s).tree = .string s := rfl

@[simp] theorem tree_array (items : List Written) :
    (array items).tree = .array (items.map tree) :=
  congrArg Tree.array (foldItems_eq_map ..)

@[simp] theorem tree_object (members : List (String × Written)) :
    (object members).tree = .object (Keyed.ofList (members.map fun m => (m.1, m.2.tree))) :=
  congrArg (fun ms => Tree.object (Keyed.ofList ms)) (foldMembers_eq_map ..)

@[simp] theorem nesting_boolean (b : Bool) : (boolean b).nesting = 0 := rfl

@[simp] theorem nesting_string (s : String) : (string s).nesting = 0 := rfl

@[simp] theorem nesting_array (items : List Written) :
    (array items).nesting = deepest (items.map nesting) + 1 :=
  congrArg (deepest · + 1) (foldItems_eq_map ..)

@[simp] theorem nesting_object (members : List (String × Written)) :
    (object members).nesting = deepest (members.map fun m => m.2.nesting) + 1 := by
  have h := foldMembers_eq_map (fun _ => 0) (fun _ => 0) (fun items => deepest items + 1)
    (fun members => deepest (members.map Prod.snd) + 1) members
  rw [nesting, fold, h, List.map_map]
  rfl

/-! ### Induction -/

/-- The value of a member is smaller than the members. -/
theorem sizeOf_snd_lt {m : String × Written} {members : List (String × Written)}
    (h : m ∈ members) : sizeOf m.2 < sizeOf members := by
  have hm : sizeOf m < sizeOf members := List.sizeOf_lt_of_mem h
  have hsnd : sizeOf m.2 < sizeOf m := by
    cases m
    simp only [Prod.mk.sizeOf_spec]
    omega
  omega

/-- **Induction on written documents**: along the elements and the values of the members. -/
@[elab_as_elim] theorem induction {motive : Written → Prop}
    (boolean : ∀ b, motive (.boolean b)) (string : ∀ s, motive (.string s))
    (array : ∀ items, (∀ w ∈ items, motive w) → motive (.array items))
    (object : ∀ members, (∀ m ∈ members, motive m.2) → motive (.object members)) :
    ∀ w, motive w
  | .boolean b => boolean b
  | .string s => string s
  | .array items => array items fun w _ => induction boolean string array object w
  | .object members => object members fun m _ => induction boolean string array object m.2
termination_by w => sizeOf w
decreasing_by
  · have hw := List.sizeOf_lt_of_mem ‹_›
    simp only [Written.array.sizeOf_spec]
    omega
  · have hm := sizeOf_snd_lt ‹_›
    simp only [Written.object.sizeOf_spec]
    omega

end Written

end ConfigSchema.Json
