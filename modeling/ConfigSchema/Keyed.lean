/-!
# Key-sorted association lists

An object of a document, a payload and a set of named slots are all finite maps from
strings. Here such a map is the list of its entries in increasing order of the keys, each
key once: two maps with the same entries are then the same list, and a map is printed by
walking over it. Strings are compared character by character by code point, which is also
the order of their UTF-8 bytes.

The main statements say what the operations do to the view `get?`:

* `ConfigSchema.Keyed.get?_insert` – an insertion changes the value at its own key only;
* `ConfigSchema.Keyed.Sorted.insert` – and keeps the list sorted, so that
  `ConfigSchema.Keyed.sorted_ofList` holds of everything that is built by insertions.
-/

namespace ConfigSchema.Keyed

variable {α : Type}

/-! ### Operations -/

/-- The value at a key, if the map has the key. -/
def get? (key : String) : List (String × α) → Option α
  | [] => none
  | (k, v) :: rest => if k = key then some v else get? key rest

/-- The map with a value set at a key; a value that was there is replaced. -/
def insert (key : String) (value : α) : List (String × α) → List (String × α)
  | [] => [(key, value)]
  | (k, v) :: rest =>
    if key < k then (key, value) :: (k, v) :: rest
    else if key = k then (key, value) :: rest
    else (k, v) :: insert key value rest

/-- The map without a key. -/
def erase (key : String) (entries : List (String × α)) : List (String × α) :=
  entries.filter fun entry => entry.1 ≠ key

/-- The map of a list of pairs, inserted from left to right: of two pairs with one key the
later one stays. -/
def ofList (pairs : List (String × α)) : List (String × α) :=
  pairs.foldl (fun entries pair => insert pair.1 pair.2 entries) []

/-- The keys increase strictly, hence each key occurs once. -/
def Sorted (entries : List (String × α)) : Prop :=
  entries.Pairwise fun a b => a.1 < b.1

/-! ### The view of an insertion -/

/-- The empty map has no key. -/
@[simp] theorem get?_nil (key : String) : get? key ([] : List (String × α)) = none := rfl

/-- **An insertion is seen at its own key only.** -/
theorem get?_insert (key other : String) (value : α) (entries : List (String × α)) :
    get? other (insert key value entries) =
      if key = other then some value else get? other entries := by
  induction entries with
  | nil => simp [insert, get?]
  | cons entry rest ih =>
    obtain ⟨k, v⟩ := entry
    rw [insert]
    split
    · simp [get?]
    · split
      · next h => subst h; simp only [get?]; split <;> rfl
      · next h =>
        rw [get?, ih, get?]
        by_cases hk : k = other
        · subst hk; simp [h]
        · simp [hk]

/-- The keys after an insertion are the keys before and the inserted one. -/
theorem mem_insert_key {key k : String} {value : α} {entries : List (String × α)}
    (h : k ∈ (insert key value entries).map Prod.fst) :
    k = key ∨ k ∈ entries.map Prod.fst := by
  induction entries with
  | nil => simpa [insert] using h
  | cons entry rest ih =>
    rw [insert] at h
    split at h
    · simpa using h
    · split at h
      · simp only [List.map_cons, List.mem_cons] at h ⊢
        rcases h with h | h
        · exact Or.inl h
        · exact Or.inr (Or.inr h)
      · simp only [List.map_cons, List.mem_cons] at h ⊢
        rcases h with h | h
        · exact Or.inr (Or.inl h)
        · rcases ih h with h | h
          · exact Or.inl h
          · exact Or.inr (Or.inr h)

/-- A key that is not below another and not equal to it is above it. -/
theorem lt_of_not_lt_of_ne {a b : String} (h : ¬ a < b) (hne : a ≠ b) : b < a := by
  rcases Std.Trichotomous.rel_or_eq_or_rel_swap (r := (· < · : String → String → Prop))
    (a := a) (b := b) with h' | h' | h'
  · exact absurd h' h
  · exact absurd h' hne
  · exact h'

/-- **An insertion keeps the entries sorted.** -/
theorem Sorted.insert {key : String} {value : α} {entries : List (String × α)}
    (h : Sorted entries) : Sorted (Keyed.insert key value entries) := by
  induction entries with
  | nil => simp [Keyed.insert, Sorted]
  | cons entry rest ih =>
    obtain ⟨k, v⟩ := entry
    obtain ⟨hhead, htail⟩ := List.pairwise_cons.mp h
    rw [Keyed.insert]
    split
    · next hlt =>
      refine List.pairwise_cons.mpr ⟨fun e he => ?_, h⟩
      rcases List.mem_cons.mp he with rfl | he
      · exact hlt
      · exact String.lt_trans hlt (hhead e he)
    · next hlt =>
      split
      · next heq => subst heq; exact List.pairwise_cons.mpr ⟨hhead, htail⟩
      · next hne =>
        refine List.pairwise_cons.mpr ⟨fun e he => ?_, ih htail⟩
        rcases mem_insert_key (List.mem_map_of_mem (f := Prod.fst) he) with hk | hk
        · exact hk ▸ lt_of_not_lt_of_ne hlt hne
        · obtain ⟨e', he', heq⟩ := List.mem_map.mp hk
          exact heq ▸ hhead e' he'

/-- Whatever a list of pairs is, the map of it is sorted. -/
theorem sorted_ofList (pairs : List (String × α)) : Sorted (ofList pairs) := by
  have h : ∀ (l : List (String × α)) (entries : List (String × α)), Sorted entries →
      Sorted (l.foldl (fun entries pair => Keyed.insert pair.1 pair.2 entries) entries) := by
    intro l
    induction l with
    | nil => exact fun _ h => h
    | cons pair rest ih => exact fun _ h => ih _ h.insert
  exact h pairs [] List.Pairwise.nil

end ConfigSchema.Keyed
