import ConfigSchema.Keyed
import Mathlib.Data.List.Induction
import Mathlib.Data.List.Nodup
import Mathlib.Data.List.Perm.Subperm

/-!
# What holds of everything in a map

A statement about all values of a key-sorted map is kept by an insertion if it holds of the
value that is inserted (`ConfigSchema.Keyed.forall_get?_insert`), and so it holds of a map
that is built by insertions if it holds of all the pairs
(`ConfigSchema.Keyed.forall_get?_ofList`).

Of two pairs with one key the later one counts (`ConfigSchema.Keyed.get?_ofList`).
As long as no key is inserted twice, a map has the pairs that it is built from, in another
order. It is enough if this is so of the keys that one looks at
(`ConfigSchema.Keyed.filter_ofList_perm`).

The keys of a sorted map are known in order once they are known as a set, and for that it is enough
that they lie among the keys of a map that is no larger (`ConfigSchema.Keyed.keys_eq_of_subset`).
-/

namespace ConfigSchema.Keyed

variable {α : Type}

/-- What a map has at a key is one of its entries. -/
theorem mem_of_get?_eq_some {key : String} {value : α} {entries : List (String × α)}
    (h : get? key entries = some value) : (key, value) ∈ entries := by
  induction entries with
  | nil => cases h
  | cons entry rest ih =>
    obtain ⟨k, v⟩ := entry
    rw [get?] at h
    split at h
    · next heq =>
      obtain rfl := Option.some.inj h
      exact heq ▸ List.mem_cons_self
    · exact List.mem_cons_of_mem _ (ih h)

/-- The entries after an insertion are the inserted one and entries that were there. -/
theorem mem_insert {key : String} {value : α} {entries : List (String × α)}
    {entry : String × α} (h : entry ∈ insert key value entries) :
    entry = (key, value) ∨ entry ∈ entries := by
  induction entries with
  | nil => exact Or.inl (List.mem_singleton.mp h)
  | cons first rest ih =>
    obtain ⟨k, v⟩ := first
    rw [insert] at h
    split at h
    · exact List.mem_cons.mp h
    · split at h
      · rcases List.mem_cons.mp h with h | h
        · exact Or.inl h
        · exact Or.inr (List.mem_cons_of_mem _ h)
      · rcases List.mem_cons.mp h with rfl | h
        · exact Or.inr List.mem_cons_self
        · rcases ih h with h | h
          · exact Or.inl h
          · exact Or.inr (List.mem_cons_of_mem _ h)

/-- What holds of all values of a map and of the one that is inserted holds of all values
afterwards. -/
theorem forall_get?_insert {P : String → α → Prop} {entries : List (String × α)}
    {key : String} {value : α} (hentries : ∀ k v, get? k entries = some v → P k v)
    (hvalue : P key value) (k : String) (v : α)
    (h : get? k (insert key value entries) = some v) : P k v := by
  rw [get?_insert] at h
  split at h
  · next heq =>
    obtain rfl := Option.some.inj h
    exact heq ▸ hvalue
  · exact hentries k v h

/-- What holds of all pairs holds of all values of the map of them. -/
theorem forall_get?_ofList {P : String → α → Prop} {pairs : List (String × α)}
    (h : ∀ pair ∈ pairs, P pair.1 pair.2) (k : String) (v : α)
    (hget : get? k (ofList pairs) = some v) : P k v := by
  have hfold : ∀ (pairs : List (String × α)) (entries : List (String × α)),
      (∀ pair ∈ pairs, P pair.1 pair.2) → (∀ k v, get? k entries = some v → P k v) →
      ∀ k v, get? k (pairs.foldl (fun entries pair => insert pair.1 pair.2 entries) entries) =
        some v → P k v := by
    intro pairs
    induction pairs with
    | nil => exact fun _ _ hentries => hentries
    | cons pair pairs ih =>
      intro entries hpairs hentries
      obtain ⟨hpair, hpairs⟩ := List.forall_mem_cons.mp hpairs
      exact ih _ hpairs (forall_get?_insert hentries hpair)
  exact hfold pairs [] h (fun _ _ hnil => by cases hnil) k v hget

/-! ### The last pair with a key -/

/-- The value of the last pair with a key. -/
def last? (key : String) : List (String × α) → Option α
  | [] => none
  | (k, v) :: rest => (last? key rest).or (if k = key then some v else none)

theorem last?_map {β : Type} (f : α → β) (key : String) (pairs : List (String × α)) :
    last? key (pairs.map fun pair => (pair.1, f pair.2)) = (last? key pairs).map f := by
  induction pairs with
  | nil => rfl
  | cons pair rest ih =>
    obtain ⟨k, v⟩ := pair
    rw [List.map_cons, last?, last?, ih, Option.map_or]
    split <;> rfl

/-- **A map of pairs has at a key what the last pair with it says.** -/
theorem get?_ofList (key : String) (pairs : List (String × α)) :
    get? key (ofList pairs) = last? key pairs := by
  have hfold : ∀ entries : List (String × α),
      get? key (pairs.foldl (fun entries pair => insert pair.1 pair.2 entries) entries) =
        (last? key pairs).or (get? key entries) := by
    induction pairs with
    | nil => exact fun entries => rfl
    | cons pair rest ih =>
      intro entries
      obtain ⟨k, v⟩ := pair
      rw [List.foldl_cons, ih, get?_insert, last?, Option.or_assoc]
      split <;> rfl
  rw [ofList, hfold, get?_nil, Option.or_none]

/-! ### Pairs and entries -/

/-- The last pair is inserted last. -/
theorem ofList_append_singleton (pairs : List (String × α)) (pair : String × α) :
    ofList (pairs ++ [pair]) = insert pair.1 pair.2 (ofList pairs) := by
  rw [ofList, ofList, List.foldl_append]
  rfl

/-- A map of pairs has no entries but the pairs. -/
theorem mem_of_mem_ofList {pairs : List (String × α)} {entry : String × α}
    (h : entry ∈ ofList pairs) : entry ∈ pairs := by
  induction pairs using List.reverseRecOn with
  | nil => exact h
  | append_singleton pairs pair ih =>
    rw [ofList_append_singleton] at h
    rcases mem_insert h with rfl | h
    · exact List.mem_append_right _ List.mem_cons_self
    · exact List.mem_append_left _ (ih h)

/-- A new key adds its entry to those that are there. -/
theorem insert_perm {key : String} {entries : List (String × α)}
    (hnew : key ∉ entries.map Prod.fst) (value : α) :
    (insert key value entries).Perm ((key, value) :: entries) := by
  induction entries with
  | nil => exact .refl _
  | cons entry rest ih =>
    obtain ⟨k, v⟩ := entry
    rw [List.map_cons, List.mem_cons, not_or] at hnew
    obtain ⟨hne, hrest⟩ := hnew
    rw [insert]
    split
    · exact .refl _
    · exact ((ih hrest).cons _).trans (.swap ..)

/-- A key that is not looked at changes nothing that is. -/
theorem filter_insert_of_not {p : String → Bool} {key : String} (hkey : p key = false)
    (value : α) (entries : List (String × α)) :
    (insert key value entries).filter (fun entry => p entry.1) =
      entries.filter fun entry => p entry.1 := by
  induction entries with
  | nil => simp [insert, hkey]
  | cons entry rest ih =>
    obtain ⟨k, v⟩ := entry
    rw [insert]
    split
    · simp [hkey]
    · split
      · next heq => simp [← heq, hkey]
      · simp only [List.filter_cons, ih]

/-- **The map of pairs has the pairs**, if only keys are looked at that occur once. -/
theorem filter_ofList_perm {p : String → Bool} {pairs : List (String × α)}
    (hnodup : ((pairs.filter fun pair => p pair.1).map Prod.fst).Nodup) :
    ((ofList pairs).filter fun entry => p entry.1).Perm
      (pairs.filter fun pair => p pair.1) := by
  induction pairs using List.reverseRecOn with
  | nil => exact .refl _
  | append_singleton pairs pair ih =>
    obtain ⟨key, value⟩ := pair
    rw [List.filter_append, List.map_append] at hnodup
    obtain ⟨hbefore, -, hdisjoint⟩ := List.nodup_append.mp hnodup
    have ih := ih hbefore
    rw [ofList_append_singleton, List.filter_append]
    cases hkey : p key with
    | false =>
      rw [filter_insert_of_not hkey]
      simpa [hkey] using ih
    | true =>
      have hnew : key ∉ (ofList pairs).map Prod.fst := by
        intro hmem
        obtain ⟨entry, hentry, rfl⟩ := List.mem_map.mp hmem
        have hpair := ih.mem_iff.mp (List.mem_filter.mpr ⟨hentry, hkey⟩)
        exact hdisjoint _ (List.mem_map_of_mem hpair) entry.1 (by simp [hkey]) rfl
      have hperm := (insert_perm hnew value).filter fun entry => p entry.1
      rw [List.filter_cons_of_pos (by simpa using hkey)] at hperm
      simpa [hkey] using hperm.trans ((ih.cons _).trans (List.perm_append_singleton _ _).symm)

/-- The map of pairs has the pairs, if no key occurs twice. -/
theorem ofList_perm {pairs : List (String × α)} (hnodup : (pairs.map Prod.fst).Nodup) :
    (ofList pairs).Perm pairs := by
  have hall : ∀ entries : List (String × α), entries.filter (fun _ => true) = entries :=
    fun entries => List.filter_eq_self.mpr fun _ _ => rfl
  have hperm : ((ofList pairs).filter fun _ => true).Perm (pairs.filter fun _ => true) :=
    filter_ofList_perm (p := fun _ => true) (by rwa [hall])
  rwa [hall, hall] at hperm

/-! ### The keys of sorted maps -/

/-- The keys of a map are the keys that it has a value at. -/
theorem mem_keys_iff {key : String} {entries : List (String × α)} :
    key ∈ entries.map Prod.fst ↔ ∃ v, get? key entries = some v := by
  constructor
  · intro h
    induction entries with
    | nil => cases h
    | cons entry rest ih =>
      obtain ⟨k, v⟩ := entry
      by_cases hk : k = key
      · exact ⟨v, if_pos hk⟩
      · obtain ⟨w, hw⟩ := ih ((List.mem_cons.mp h).resolve_left fun h => hk h.symm)
        exact ⟨w, by rw [get?, if_neg hk, hw]⟩
  · rintro ⟨v, hv⟩
    exact List.mem_map_of_mem (mem_of_get?_eq_some hv)

/-- The keys of a sorted map increase. -/
theorem Sorted.keys {entries : List (String × α)} (h : Sorted entries) :
    (entries.map Prod.fst).Pairwise (· < ·) :=
  List.pairwise_map.mpr h

/-- **Sorted maps have one list of keys** if the keys of the first are keys of the second, and the
second has no more of them. -/
theorem keys_eq_of_subset {a b : List (String × α)} (ha : Sorted a) (hb : Sorted b)
    (hsub : a.map Prod.fst ⊆ b.map Prod.fst) (hlength : b.length ≤ a.length) :
    a.map Prod.fst = b.map Prod.fst := by
  have hnodup : (a.map Prod.fst).Nodup :=
    ha.keys.imp (S := (· ≠ ·)) fun hlt heq => String.lt_irrefl _ (heq ▸ hlt)
  have hperm : (a.map Prod.fst).Perm (b.map Prod.fst) :=
    (List.subperm_of_subset hnodup hsub).perm_of_length_le (by simpa using hlength)
  exact hperm.eq_of_pairwise
    (fun _ _ _ _ hlt hgt => absurd (String.lt_trans hlt hgt) (String.lt_irrefl _)) ha.keys hb.keys

end ConfigSchema.Keyed
