import ConfigSchema.Proofs.Keyed
import ConfigSchema.Value.Equality

/-!
# Equality of values as a relation

Equality of values compares leaf by leaf, and at the leaves numbers are compared numerically. It
inherits what holds there: it does not depend on the order
(`ConfigSchema.Value.equal_comm`), it can be chained (`ConfigSchema.Value.equal_trans`), and
it only holds between values of one kind (`ConfigSchema.Value.kind_eq_of_equal`). The one thing
that is missing of an equivalence is missing at the leaves: a value equals itself exactly if none
of the floating point numbers in it is a word that is not a number
(`ConfigSchema.Value.equal_self_iff`).

The entries of a map are compared one by one, which says what it should of maps only because they
are sorted. Two sorted maps are equal exactly if they are of one size and every key of the first
is in the second, with an equal value (`ConfigSchema.Payload.equal_iff_equalMaps`).
-/

namespace ConfigSchema

/-! ### Lists with a fixed element kind -/

namespace TypedList

theorem equalFloats_comm (xs ys : List Binary64) : equalFloats xs ys = equalFloats ys xs := by
  induction xs generalizing ys with
  | nil => cases ys <;> rfl
  | cons x xs ih =>
    cases ys with
    | nil => rfl
    | cons y ys => rw [equalFloats, equalFloats, Binary64.equal_comm, ih]

theorem equalFloats_trans {xs ys zs : List Binary64} (h : equalFloats xs ys = true)
    (h' : equalFloats ys zs = true) : equalFloats xs zs = true := by
  induction xs generalizing ys zs with
  | nil =>
    cases ys with
    | nil => exact h'
    | cons => cases h
  | cons x xs ih =>
    cases ys with
    | nil => cases h
    | cons y ys =>
      cases zs with
      | nil => cases h'
      | cons z zs =>
        obtain ⟨hx, hxs⟩ := Bool.and_eq_true_iff.mp h
        obtain ⟨hy, hys⟩ := Bool.and_eq_true_iff.mp h'
        exact Bool.and_eq_true_iff.mpr ⟨Binary64.equal_trans hx hy, ih hxs hys⟩

theorem equalFloats_self (xs : List Binary64) :
    equalFloats xs xs = xs.all fun x => !x.isNaN := by
  induction xs with
  | nil => rfl
  | cons x xs ih => rw [equalFloats, Binary64.equal_self, ih, List.all_cons]

/-- The floating point numbers in a list. -/
def floatsIn : TypedList → List Binary64
  | .floats xs => xs
  | _ => []

theorem equal_comm (a b : TypedList) : a.equal b = b.equal a := by
  cases a with
  | strings xs => cases b with | strings ys => exact Bool.beq_comm | _ => rfl
  | integers xs => cases b with | integers ys => exact Bool.beq_comm | _ => rfl
  | floats xs => cases b with | floats ys => exact equalFloats_comm xs ys | _ => rfl
  | booleans xs => cases b with | booleans ys => exact Bool.beq_comm | _ => rfl

theorem kind_eq_of_equal {a b : TypedList} (h : a.equal b = true) : a.kind = b.kind := by
  cases a <;> cases b <;> first | rfl | cases h

theorem equal_trans {a b c : TypedList} (h : a.equal b = true) (h' : b.equal c = true) :
    a.equal c = true := by
  cases a with
  | floats xs =>
    cases b with
    | floats ys =>
      cases c with
      | floats zs => exact equalFloats_trans h h'
      | _ => cases h'
    | _ => cases h
  | strings xs => cases b with | strings ys => exact (beq_iff_eq.mp h) ▸ h' | _ => cases h
  | integers xs => cases b with | integers ys => exact (beq_iff_eq.mp h) ▸ h' | _ => cases h
  | booleans xs => cases b with | booleans ys => exact (beq_iff_eq.mp h) ▸ h' | _ => cases h

theorem equal_self (a : TypedList) : a.equal a = a.floatsIn.all fun x => !x.isNaN := by
  cases a with
  | floats xs => exact equalFloats_self xs
  | _ => exact beq_self_eq_true _

end TypedList

namespace Value

/-! ### The laws of equality -/

/-- **Equal values are of one kind.** -/
theorem kind_eq_of_equal {a b : Value} (h : a.equal b = true) : a.kind = b.kind := by
  cases a with
  | typedList xs =>
    cases b with
    | typedList ys => exact congrArg Kind.typedList (TypedList.kind_eq_of_equal h)
    | _ => cases h
  | unsupported name =>
    cases b with
    | unsupported name' => exact congrArg Kind.unsupported (beq_iff_eq.mp h)
    | _ => cases h
  | _ => cases b <;> first | rfl | cases h

mutual

/-- **Equality does not depend on the order.** -/
theorem equal_comm : ∀ a b : Value, a.equal b = b.equal a
  | .string _, b => by cases b with | string => exact Bool.beq_comm | _ => rfl
  | .integer _, b => by cases b with | integer => exact Bool.beq_comm | _ => rfl
  | .float x, b => by cases b with | float y => exact Binary64.equal_comm x y | _ => rfl
  | .boolean _, b => by cases b with | boolean => exact Bool.beq_comm | _ => rfl
  | .list items, b => by
    cases b with | list items' => exact equalItems_comm items items' | _ => rfl
  | .map entries, b => by
    cases b with | map entries' => exact equalEntries_comm entries entries' | _ => rfl
  | .typedList xs, b => by
    cases b with | typedList ys => exact TypedList.equal_comm xs ys | _ => rfl
  | .unsupported _, b => by cases b with | unsupported => exact Bool.beq_comm | _ => rfl
  | .null, b => by cases b <;> rfl

/-- Nor does the equality of lists of values. -/
theorem equalItems_comm : ∀ items items' : List Value,
    equalItems items items' = equalItems items' items
  | [], items' => by cases items' <;> rfl
  | v :: rest, [] => rfl
  | v :: rest, w :: rest' => by
    rw [equalItems, equalItems, equal_comm v w, equalItems_comm rest rest']

/-- Nor that of entries. -/
theorem equalEntries_comm : ∀ entries entries' : List (String × Value),
    equalEntries entries entries' = equalEntries entries' entries
  | [], entries' => by cases entries' <;> rfl
  | (k, v) :: rest, [] => rfl
  | (k, v) :: rest, (l, w) :: rest' => by
    rw [equalEntries, equalEntries, equal_comm v w, equalEntries_comm rest rest',
      Bool.beq_comm (a := k)]

end

/-- Only a list equals a list. -/
theorem equal_list_iff {items : List Value} {b : Value} :
    (Value.list items).equal b = true ↔
      ∃ items', b = .list items' ∧ equalItems items items' = true := by
  cases b <;> simp [equal]

/-- Only a map equals a map. -/
theorem equal_map_iff {entries : List (String × Value)} {b : Value} :
    (Value.map entries).equal b = true ↔
      ∃ entries', b = .map entries' ∧ equalEntries entries entries' = true := by
  cases b <;> simp [equal]

mutual

/-- **Equality can be chained.** -/
theorem equal_trans : ∀ {a b c : Value}, a.equal b = true → b.equal c = true → a.equal c = true
  | .float x, b, c, h, h' => by
    cases b with
    | float y => cases c with | float z => exact Binary64.equal_trans h h' | _ => cases h'
    | _ => cases h
  | .list items, b, c, h, h' => by
    obtain ⟨items', rfl, h⟩ := equal_list_iff.mp h
    obtain ⟨items'', rfl, h'⟩ := equal_list_iff.mp h'
    exact equalItems_trans h h'
  | .map entries, b, c, h, h' => by
    obtain ⟨entries', rfl, h⟩ := equal_map_iff.mp h
    obtain ⟨entries'', rfl, h'⟩ := equal_map_iff.mp h'
    exact equalEntries_trans h h'
  | .typedList xs, b, c, h, h' => by
    cases b with
    | typedList ys =>
      cases c with | typedList zs => exact TypedList.equal_trans h h' | _ => cases h'
    | _ => cases h
  | .string _, b, c, h, h' => by
    cases b with | string => exact (beq_iff_eq.mp h) ▸ h' | _ => cases h
  | .integer _, b, c, h, h' => by
    cases b with | integer => exact (beq_iff_eq.mp h) ▸ h' | _ => cases h
  | .boolean _, b, c, h, h' => by
    cases b with | boolean => exact (beq_iff_eq.mp h) ▸ h' | _ => cases h
  | .unsupported _, b, c, h, h' => by
    cases b with | unsupported => exact (beq_iff_eq.mp h) ▸ h' | _ => cases h
  | .null, b, c, h, h' => by
    cases b with | null => exact h' | _ => cases h

/-- So can the equality of lists of values. -/
theorem equalItems_trans : ∀ {as bs cs : List Value},
    equalItems as bs = true → equalItems bs cs = true → equalItems as cs = true
  | [], bs, cs, h, h' => by
    cases bs with | nil => exact h' | cons => cases h
  | a :: as, bs, cs, h, h' => by
    cases bs with
    | nil => cases h
    | cons b bs =>
      cases cs with
      | nil => cases h'
      | cons c cs =>
        obtain ⟨ha, has⟩ := Bool.and_eq_true_iff.mp h
        obtain ⟨hb, hbs⟩ := Bool.and_eq_true_iff.mp h'
        exact Bool.and_eq_true_iff.mpr ⟨equal_trans ha hb, equalItems_trans has hbs⟩

/-- And that of entries. -/
theorem equalEntries_trans : ∀ {as bs cs : List (String × Value)},
    equalEntries as bs = true → equalEntries bs cs = true → equalEntries as cs = true
  | [], bs, cs, h, h' => by
    cases bs with | nil => exact h' | cons => cases h
  | (k, a) :: as, bs, cs, h, h' => by
    cases bs with
    | nil => cases h
    | cons entry bs =>
      cases cs with
      | nil => cases h'
      | cons entry' cs =>
        obtain ⟨hhead, has⟩ := Bool.and_eq_true_iff.mp h
        obtain ⟨hhead', hbs⟩ := Bool.and_eq_true_iff.mp h'
        obtain ⟨hk, ha⟩ := Bool.and_eq_true_iff.mp hhead
        obtain ⟨hl, hb⟩ := Bool.and_eq_true_iff.mp hhead'
        obtain rfl := beq_iff_eq.mp hk
        exact Bool.and_eq_true_iff.mpr ⟨Bool.and_eq_true_iff.mpr ⟨hl, equal_trans ha hb⟩,
          equalEntries_trans has hbs⟩

end

/-! ### Values that equal themselves -/

mutual

/-- **The floating point numbers in a value**, at any depth, those of lists with a fixed element
kind included. -/
def floatsIn : Value → List Binary64
  | .float x => [x]
  | .list items => floatsInItems items
  | .map entries => floatsInEntries entries
  | .typedList xs => xs.floatsIn
  | _ => []

/-- The floating point numbers in the elements of a list. -/
def floatsInItems : List Value → List Binary64
  | [] => []
  | v :: rest => floatsIn v ++ floatsInItems rest

/-- The floating point numbers in the values of entries. -/
def floatsInEntries : List (String × Value) → List Binary64
  | [] => []
  | (_, v) :: rest => floatsIn v ++ floatsInEntries rest

end

mutual

/-- A value is compared with itself number by number. -/
theorem equal_self : ∀ a : Value, a.equal a = a.floatsIn.all fun x => !x.isNaN
  | .float x => by
    rw [equal, Binary64.equal_self, floatsIn, List.all_cons, List.all_nil, Bool.and_true]
  | .list items => equalItems_self items
  | .map entries => equalEntries_self entries
  | .typedList xs => TypedList.equal_self xs
  | .string _ => beq_self_eq_true _
  | .integer _ => beq_self_eq_true _
  | .boolean _ => beq_self_eq_true _
  | .unsupported _ => beq_self_eq_true _
  | .null => rfl

/-- A list of values too. -/
theorem equalItems_self : ∀ items : List Value,
    equalItems items items = (floatsInItems items).all fun x => !x.isNaN
  | [] => rfl
  | v :: rest => by
    rw [equalItems, floatsInItems, List.all_append, equal_self v, equalItems_self rest]

/-- And entries. -/
theorem equalEntries_self : ∀ entries : List (String × Value),
    equalEntries entries entries = (floatsInEntries entries).all fun x => !x.isNaN
  | [] => rfl
  | (k, v) :: rest => by
    rw [equalEntries, floatsInEntries, List.all_append, equal_self v, equalEntries_self rest,
      beq_self_eq_true, Bool.true_and]

end

/-- **A value equals itself** exactly if no floating point number in it is a word that is not a
number. -/
theorem equal_self_iff {a : Value} :
    a.equal a = true ↔ ∀ x ∈ a.floatsIn, x.isNaN = false := by
  rw [equal_self, List.all_eq_true]
  simp only [Bool.not_eq_true']

end Value

/-! ### Equality of maps -/

namespace Payload

/-- **Two maps are equal as maps**: they are of one size, and what the first has at a key equals
what the second has there. -/
structure EqualMaps (a b : Payload) : Prop where
  /-- They have equally many keys. -/
  length_eq : a.length = b.length
  /-- A key of the first is a key of the second, with an equal value. -/
  get_eq : ∀ key v, Keyed.get? key a = some v → ∃ w, Keyed.get? key b = some w ∧ v.equal w = true

/-- **Equal payloads have equal values**, or none, at every key. -/
theorem get?_of_equal {a b : Payload} (h : a.equal b = true) (key : String) :
    (Keyed.get? key a = none ∧ Keyed.get? key b = none) ∨
      ∃ v w, Keyed.get? key a = some v ∧ Keyed.get? key b = some w ∧ v.equal w = true := by
  induction a generalizing b with
  | nil =>
    cases b with
    | nil => exact .inl ⟨rfl, rfl⟩
    | cons => cases h
  | cons entry a ih =>
    obtain ⟨k, v⟩ := entry
    cases b with
    | nil => cases h
    | cons entry b =>
      obtain ⟨l, w⟩ := entry
      obtain ⟨hhead, hrest⟩ := Bool.and_eq_true_iff.mp h
      obtain ⟨hkey, hvalue⟩ := Bool.and_eq_true_iff.mp hhead
      obtain rfl := beq_iff_eq.mp hkey
      rw [Keyed.get?, Keyed.get?]
      split
      · exact .inr ⟨v, w, rfl, rfl, hvalue⟩
      · exact ih hrest

/-- Equal payloads are of one size. -/
theorem length_eq_of_equal {a b : Payload} (h : a.equal b = true) : a.length = b.length := by
  induction a generalizing b with
  | nil => cases b with | nil => rfl | cons => cases h
  | cons entry a ih =>
    cases b with
    | nil => cases h
    | cons entry' b => exact congrArg (· + 1) (ih (Bool.and_eq_true_iff.mp h).2)

/-- Entries that are equal one by one are equal as maps. -/
theorem equalMaps_of_equal {a b : Payload} (h : a.equal b = true) : EqualMaps a b := by
  refine ⟨length_eq_of_equal h, fun key v hv => ?_⟩
  rcases get?_of_equal h key with ⟨hnone, -⟩ | ⟨v', w, hv', hw, hvalue⟩
  · rw [hv] at hnone
    cases hnone
  · obtain rfl := Option.some.inj (hv.symm.trans hv')
    exact ⟨w, hw, hvalue⟩

/-- If two sorted maps have one list of keys, equal values for every key are equal one by one. -/
theorem equal_of_keys_eq {a b : Payload} (ha : Keyed.Sorted a)
    (hkeys : a.map Prod.fst = b.map Prod.fst)
    (hget : ∀ key v, Keyed.get? key a = some v →
      ∃ w, Keyed.get? key b = some w ∧ v.equal w = true) : a.equal b = true := by
  induction a generalizing b with
  | nil =>
    obtain rfl := List.map_eq_nil_iff.mp hkeys.symm
    rfl
  | cons entry a ih =>
    obtain ⟨k, v⟩ := entry
    obtain ⟨⟨l, w⟩, b, rfl, hkey, hrest⟩ := List.map_eq_cons_iff.mp hkeys.symm
    obtain rfl : l = k := hkey
    obtain ⟨habove, hsorted⟩ := List.pairwise_cons.mp ha
    have hvalue : v.equal w = true := by
      obtain ⟨w', hw', hequal⟩ := hget l v (if_pos rfl)
      rw [Keyed.get?, if_pos rfl] at hw'
      exact Option.some.inj hw' ▸ hequal
    refine Bool.and_eq_true_iff.mpr
      ⟨Bool.and_eq_true_iff.mpr ⟨beq_self_eq_true _, hvalue⟩, ih hsorted hrest.symm ?_⟩
    intro key u hu
    -- the first key is below all others, so that a later entry is found behind it
    have hne : l ≠ key := fun heq =>
      String.lt_irrefl _ (heq ▸ habove _ (Keyed.mem_of_get?_eq_some hu))
    obtain ⟨u', hu', hequal⟩ := hget key u (by rw [Keyed.get?, if_neg hne]; exact hu)
    rw [Keyed.get?, if_neg hne] at hu'
    exact ⟨u', hu', hequal⟩

/-- **Sorted maps are equal exactly if they are equal as maps.** -/
theorem equal_iff_equalMaps {a b : Payload} (ha : Keyed.Sorted a) (hb : Keyed.Sorted b) :
    a.equal b = true ↔ EqualMaps a b := by
  refine ⟨equalMaps_of_equal, fun h => equal_of_keys_eq ha ?_ h.get_eq⟩
  refine Keyed.keys_eq_of_subset ha hb (fun key hkey => ?_) (Nat.le_of_eq h.length_eq.symm)
  obtain ⟨v, hv⟩ := Keyed.mem_keys_iff.mp hkey
  obtain ⟨w, hw, -⟩ := h.get_eq key v hv
  exact Keyed.mem_keys_iff.mpr ⟨w, hw⟩

end Payload

end ConfigSchema
