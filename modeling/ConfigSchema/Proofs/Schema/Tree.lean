import ConfigSchema.Schema.Basic

/-!
# Schemas as trees

A schema is a tree of levels: below a field stand its children, which are a level again.
Whatever holds of a level once it holds of the children of each of its fields holds of every
schema (`ConfigSchema.Schema.levelInduction`); every statement about the checks is proved
along it, with the loop over the fields of a level settled beforehand.

The depth of a schema is read the same way: it is bounded by the depths of the children of
the `object` fields of its first level (`ConfigSchema.Schema.depth_le_iff`).
-/

namespace ConfigSchema

namespace Field

/-- The children of a field are smaller than a level that has the field. -/
theorem sizeOf_children_lt {f : Field} {level : List Field} (h : f ∈ level) :
    sizeOf f.children < sizeOf level := by
  have hlt : sizeOf f < sizeOf level := List.sizeOf_lt_of_mem h
  have hf : sizeOf f.children < sizeOf f := by
    cases f
    simp only [Field.mk.sizeOf_spec]
    omega
  omega

/-- The depth of a field in terms of its parts. -/
theorem depth_eq (f : Field) :
    f.depth = if f.type.isObject then 1 + Schema.depth f.children else 0 := by
  cases f
  rfl

end Field

namespace FieldType

/-- One type alone owns a schema. -/
theorem isObject_eq_true_iff {t : FieldType} : t.isObject = true ↔ t = .object := by
  cases t <;> simp [isObject]

/-- A type is not recognised exactly if it was made as unknown. -/
theorem isKnown_eq_false_iff {t : FieldType} : t.isKnown = false ↔ ∃ name, t = .unknown name := by
  cases t <;> simp [isKnown]

end FieldType

namespace Schema

/-- **Induction on levels**: a statement holds of every schema if it holds of a level
whenever it holds of the children of all the fields of the level. -/
@[elab_as_elim] theorem levelInduction {motive : List Field → Prop}
    (level : ∀ fields : List Field, (∀ f ∈ fields, motive f.children) → motive fields)
    (schema : List Field) : motive schema :=
  level schema fun f _ => levelInduction level f.children
termination_by sizeOf schema
decreasing_by exact Field.sizeOf_children_lt ‹_›

/-- **The depth of a schema is bounded** exactly if each of its `object` fields leaves room
for its children. -/
theorem depth_le_iff {schema : List Field} {n : Nat} :
    Schema.depth schema ≤ n ↔
      ∀ f ∈ schema, f.type = .object → Schema.depth f.children + 1 ≤ n := by
  induction schema with
  | nil => simp [Schema.depth]
  | cons f fs ih =>
    have hf : f.depth ≤ n ↔ (f.type = .object → Schema.depth f.children + 1 ≤ n) := by
      rw [Field.depth_eq]
      by_cases ho : f.type = .object
      · rw [if_pos (FieldType.isObject_eq_true_iff.mpr ho)]
        simp [ho, Nat.add_comm]
      · rw [if_neg (mt FieldType.isObject_eq_true_iff.mp ho)]
        simp [ho]
    rw [Schema.depth, Nat.max_le, ih, hf, List.forall_mem_cons]

end Schema

end ConfigSchema
