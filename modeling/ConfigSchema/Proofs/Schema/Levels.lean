import ConfigSchema.Proofs.Outcome
import ConfigSchema.Proofs.Schema.Tree
import ConfigSchema.Schema.Check

/-!
# What the check of a schema does at one level

The check of a schema walks over the fields of a level with the labels that it has seen, and
goes one level down, with one less to go, wherever a field is an `object`. This file says
what it takes for a level to pass, with no trace left of the order in which the fields are
visited: the level is well formed on its own
(`ConfigSchema.Schema.LevelWellFormed`), and the children of its `object` fields pass with
one less (`ConfigSchema.Schema.check_eq_ok_iff`).
-/

namespace ConfigSchema

namespace Schema

/-- **A level is well formed**: its labels are not empty and pairwise distinct, and its types
are recognised. The levels below are not looked at. -/
structure LevelWellFormed (level : Schema) : Prop where
  /-- No label is empty. -/
  label_ne_empty : ∀ f ∈ level, f.label ≠ ""
  /-- No label occurs twice. -/
  nodup_labels : (level.map Field.label).Nodup
  /-- Every type is recognised. -/
  isKnown_type : ∀ f ∈ level, f.type.isKnown = true

/-- **Fields of a level pass**: as a level they are well formed, and the children of `object`
fields pass with one less. -/
structure Pass (fields : List Field) (remaining : Int32) : Prop where
  /-- Labels and types are as they should be. -/
  wellFormed : LevelWellFormed fields
  /-- So is what lies below. -/
  children : ∀ f ∈ fields, f.type = .object → check f.children (remaining - 1) = .ok ()

/-! ### Counting down -/

/-- A count that is not below zero can be counted down: the subtraction does not wrap. -/
theorem toInt_sub_one {n : Int32} (h : 0 ≤ n.toInt) : (n - 1).toInt = n.toInt - 1 := by
  have hlt := n.toInt_lt
  rw [Int32.toInt_sub, show (1 : Int32).toInt = 1 from rfl]
  exact Int.bmod_eq_of_le (by omega) (by omega)

section WithinDepth

variable {remaining : Int32} {level : Int32 → Except SchemaError Unit} {e : SchemaError}

theorem lt_zero_iff : remaining < 0 ↔ remaining.toInt < 0 := Int32.lt_iff_toInt_lt

theorem withinDepth_of_neg (h : remaining.toInt < 0) :
    withinDepth remaining level = .error .depthExceeded :=
  if_pos (lt_zero_iff.mpr h)

theorem withinDepth_of_nonneg (h : 0 ≤ remaining.toInt) :
    withinDepth remaining level = level remaining :=
  if_neg (mt lt_zero_iff.mp (Int.not_lt.mpr h))

/-- A level is refused as a whole exactly if the count is below zero. -/
theorem withinDepth_eq_ok_iff :
    withinDepth remaining level = .ok () ↔ 0 ≤ remaining.toInt ∧ level remaining = .ok () := by
  rcases Int.lt_or_le remaining.toInt 0 with h | h
  · rw [withinDepth_of_neg h]
    constructor
    · intro hok
      cases hok
    · rintro ⟨hnonneg, -⟩
      omega
  · rw [withinDepth_of_nonneg h]
    exact ⟨fun hok => ⟨h, hok⟩, fun hok => hok.2⟩

/-- Otherwise it is refused where its fields are. -/
theorem withinDepth_eq_error_iff :
    withinDepth remaining level = .error e ↔
      (remaining.toInt < 0 ∧ e = .depthExceeded) ∨
        (0 ≤ remaining.toInt ∧ level remaining = .error e) := by
  rcases Int.lt_or_le remaining.toInt 0 with h | h
  · rw [withinDepth_of_neg h]
    constructor
    · intro he
      exact Or.inl ⟨h, (Except.error.inj he).symm⟩
    · rintro (⟨-, rfl⟩ | ⟨hnonneg, -⟩)
      · rfl
      · omega
  · rw [withinDepth_of_nonneg h]
    constructor
    · exact fun he => Or.inr ⟨h, he⟩
    · rintro (⟨hneg, -⟩ | ⟨-, he⟩)
      · omega
      · exact he

end WithinDepth

/-! ### Fields -/

/-- A field passes exactly if its type is recognised, and its children pass with one less if
it is an `object`. -/
theorem checkField_eq_ok_iff {f : Field} {remaining : Int32} :
    checkField f remaining = .ok () ↔
      f.type.isKnown = true ∧
        (f.type = .object → check f.children (remaining - 1) = .ok ()) := by
  obtain ⟨label, type, required, isArray, children⟩ := f
  cases type with
  | object => simp [checkField, FieldType.isKnown, check]
  | unknown name => simp [checkField, FieldType.isKnown]
  | _ => simp [checkField, FieldType.isKnown]

/-- The fields of a level pass exactly if their labels are not empty, differ from those seen
before and from each other, and each of them passes. -/
theorem checkFields_eq_ok_iff {fields : List Field} {seen : List String}
    {remaining : Int32} :
    checkFields fields seen remaining = .ok () ↔
      (∀ f ∈ fields, f.label ≠ "" ∧ f.label ∉ seen) ∧ (fields.map Field.label).Nodup ∧
        ∀ f ∈ fields, checkField f remaining = .ok () := by
  induction fields generalizing seen with
  | nil => simp [checkFields]
  | cons f fs ih =>
    rw [checkFields]
    by_cases hempty : f.label = ""
    · rw [if_pos hempty]
      simp [hempty]
    rw [if_neg hempty]
    by_cases hseen : f.label ∈ seen
    · rw [if_pos hseen]
      simp [hseen]
    -- the head passes its own tests: what is left is the walk over the rest, which has seen
    -- one label more
    rw [if_neg hseen, Outcome.check_bind_eq_ok_iff]
    simp only [ih, List.forall_mem_cons]
    simp only [List.map_cons, List.nodup_cons, List.mem_cons, List.mem_map, not_or, not_exists,
      not_and]
    constructor
    · rintro ⟨hf, hlabels, hnodup, hfields⟩
      exact ⟨⟨⟨hempty, hseen⟩, fun g hg => ⟨(hlabels g hg).1, (hlabels g hg).2.2⟩⟩,
        ⟨fun g hg => (hlabels g hg).2.1, hnodup⟩, hf, hfields⟩
    · rintro ⟨⟨-, hlabels⟩, ⟨hnew, hnodup⟩, hf, hfields⟩
      exact ⟨hf, fun g hg => ⟨(hlabels g hg).1, hnew g hg, (hlabels g hg).2⟩, hnodup,
        hfields⟩

/-! ### Levels -/

/-- The walk gets through fields, with no labels seen before, exactly if they pass. -/
theorem checkFields_nil_eq_ok_iff {fields : List Field} {remaining : Int32} :
    checkFields fields [] remaining = .ok () ↔ Pass fields remaining := by
  rw [checkFields_eq_ok_iff]
  simp only [checkField_eq_ok_iff, List.not_mem_nil, not_false_eq_true, and_true]
  constructor
  · rintro ⟨hlabels, hnodup, hfields⟩
    exact ⟨⟨hlabels, hnodup, fun f hf => (hfields f hf).1⟩, fun f hf => (hfields f hf).2⟩
  · rintro ⟨hlevel, hchildren⟩
    exact ⟨hlevel.label_ne_empty, hlevel.nodup_labels,
      fun f hf => ⟨hlevel.isKnown_type f hf, hchildren f hf⟩⟩

/-- **A schema passes under a ceiling** exactly if the ceiling is not below zero, the first
level is well formed, and the children of its `object` fields pass under a ceiling of one
less. -/
theorem check_eq_ok_iff {schema : Schema} {ceiling : Int32} :
    check schema ceiling = .ok () ↔
      0 ≤ ceiling.toInt ∧ LevelWellFormed schema ∧
        ∀ f ∈ schema, f.type = .object → check f.children (ceiling - 1) = .ok () := by
  rw [check, withinDepth_eq_ok_iff, checkFields_nil_eq_ok_iff]
  exact and_congr Iff.rfl ⟨fun ⟨hlevel, hchildren⟩ => ⟨hlevel, hchildren⟩,
    fun ⟨hlevel, hchildren⟩ => ⟨hlevel, hchildren⟩⟩

end Schema

end ConfigSchema
