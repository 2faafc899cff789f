import ConfigSchema.Proofs.Payload.Verdict
import ConfigSchema.Proofs.Schema.WellFormed

/-!
# Schemas that ask for no more

Two checks go through a schema, each in its own way, and a payload or a ceiling that satisfies
one schema may be too little for another. When is it enough for both? A field *covers* another
one if it asks for all that the other asks for, their children apart
(`ConfigSchema.Field.Covers`). A relation between schemas is a *covering*
(`ConfigSchema.Schema.Covering`) if every field of the second schema is covered by a field of the
first, with children that are related again (`ConfigSchema.Schema.CoversField`), and the second
schema repeats no label unless the first one does.

Nothing is said about the order of the fields, nor about how many there are, since neither check
accepts for the sake of an order. Whatever passes the first schema then passes the second
(`ConfigSchema.Schema.Covering.check_payload_eq_ok`), the second schema is no deeper
(`ConfigSchema.Schema.Covering.depth_le`), and it passes its own check wherever the first one does
(`ConfigSchema.Schema.Covering.check_eq_ok`).
-/

namespace ConfigSchema

/-- **A field covers another one**: both have the same label, type and cardinality, and it is
required if the other is. Of the children nothing is said. -/
structure Field.Covers (f g : Field) : Prop where
  /-- The fields have one label. -/
  label_eq : g.label = f.label
  /-- They have one type. -/
  type_eq : g.type = f.type
  /-- Both are arrays, or neither is. -/
  isArray_eq : g.isArray = f.isArray
  /-- What the covered field requires is required. -/
  required : g.required = true → f.required = true

namespace Field.Covers

theorem refl (f : Field) : f.Covers f := ⟨rfl, rfl, rfl, id⟩

theorem trans {f g h : Field} (hfg : f.Covers g) (hgh : g.Covers h) : f.Covers h :=
  ⟨hgh.label_eq.trans hfg.label_eq, hgh.type_eq.trans hfg.type_eq,
    hgh.isArray_eq.trans hfg.isArray_eq, fun hrequired => hfg.required (hgh.required hrequired)⟩

end Field.Covers

/-! ### One field -/

namespace Payload

variable {f g : Field} {payload : Payload} {v : Value}

/-- A value that passes a field passes a field with the same type, if all maps that pass the
children of the one pass the children of the other. -/
theorem checkOne_eq_ok_of_covers (hcovers : f.Covers g)
    (hbelow : ∀ entries, check f.children entries = .ok () → check g.children entries = .ok ())
    (hok : checkOne f v = .ok ()) : checkOne g v = .ok () := by
  obtain ⟨haccepts, hmap⟩ := checkValue_eq_ok_iff.mp hok
  rw [← hcovers.type_eq] at haccepts hmap
  exact checkValue_eq_ok_iff.mpr
    ⟨haccepts, fun entries hobject hv => hbelow entries (hmap entries hobject hv)⟩

/-- **A payload that passes a field passes every field that is covered by it**, if the same holds
of their children. -/
theorem checkField_eq_ok_of_covers (hcovers : f.Covers g)
    (hbelow : ∀ entries, check f.children entries = .ok () → check g.children entries = .ok ())
    (hok : checkField f payload = .ok ()) : checkField g payload = .ok () := by
  rw [checkField_eq_ok_iff, hcovers.label_eq, hcovers.isArray_eq]
  rcases checkField_eq_ok_iff.mp hok with
    ⟨hget, hoptional⟩ | ⟨v, hget, hone, hv⟩ | ⟨items, hget, harray, hne, hitems⟩
  · have hoptional' : g.required = false := by
      cases hrequired : g.required with
      | false => rfl
      | true => exact absurd (hcovers.required hrequired) (by simp [hoptional])
    exact Or.inl ⟨hget, hoptional'⟩
  · exact Or.inr (Or.inl ⟨v, hget, hone, checkOne_eq_ok_of_covers hcovers hbelow hv⟩)
  · exact Or.inr (Or.inr ⟨items, hget, harray, fun hrequired => hne (hcovers.required hrequired),
      fun w hw => checkOne_eq_ok_of_covers hcovers hbelow (hitems w hw)⟩)

end Payload

/-! ### Schemas -/

namespace Schema

/-- **A field is covered by a schema**: a field of the schema covers it, with children that are
related by the given relation. -/
def CoversField (R : Schema → Schema → Prop) (schema : Schema) (g : Field) : Prop :=
  ∃ f ∈ schema, f.Covers g ∧ R f.children g.children

section CoversField

variable {R : Schema → Schema → Prop} {fields fields' : List Field} {f g : Field}

/-- One more field in the schema does no harm. -/
theorem CoversField.cons (h : CoversField R fields g) : CoversField R (f :: fields) g := by
  obtain ⟨f', hf', hcovers⟩ := h
  exact ⟨f', List.mem_cons_of_mem _ hf', hcovers⟩

/-- A level is covered field by field. -/
theorem forall_coversField_cons (hcovers : f.Covers g) (hbelow : R f.children g.children)
    (hrest : ∀ g' ∈ fields', CoversField R fields g') :
    ∀ g' ∈ g :: fields', CoversField R (f :: fields) g' :=
  List.forall_mem_cons.mpr
    ⟨⟨f, List.mem_cons_self, hcovers, hbelow⟩, fun g' hg' => (hrest g' hg').cons⟩

end CoversField

/-- **A relation under which a schema covers another one.** -/
structure Covering (R : Schema → Schema → Prop) : Prop where
  /-- Every field of the second schema is covered by the first one, with children that are
  related again. -/
  coversField : ∀ {schema schema' : Schema}, R schema schema' → ∀ g ∈ schema',
    CoversField R schema g
  /-- The second schema repeats no label if the first one does not. -/
  nodup_labels : ∀ {schema schema' : Schema}, R schema schema' →
    (schema.map Field.label).Nodup → (schema'.map Field.label).Nodup

namespace Covering

variable {R : Schema → Schema → Prop} {schema schema' : Schema} {ceiling : Int32}
  {payload : Payload}

/-- **The covered schema is no deeper.** -/
theorem depth_le (hR : Covering R) (h : R schema schema') : depth schema' ≤ depth schema := by
  induction schema using levelInduction generalizing schema' with
  | level fields ih =>
    refine depth_le_iff.mpr fun g hg hobject => ?_
    obtain ⟨f, hf, hcovers, hbelow⟩ := hR.coversField h g hg
    have hdeeper : depth f.children + 1 ≤ depth fields :=
      depth_le_iff.mp (Nat.le_refl _) f hf (hcovers.type_eq ▸ hobject)
    exact Nat.le_trans (Nat.succ_le_succ (ih f hf hbelow)) hdeeper

/-- If the first level of the one is well formed, so is that of the other. -/
theorem levelWellFormed (hR : Covering R) (h : R schema schema')
    (hlevel : LevelWellFormed schema) : LevelWellFormed schema' := by
  refine ⟨fun g hg => ?_, hR.nodup_labels h hlevel.nodup_labels, fun g hg => ?_⟩
  · obtain ⟨f, hf, hcovers, -⟩ := hR.coversField h g hg
    rw [hcovers.label_eq]
    exact hlevel.label_ne_empty f hf
  · obtain ⟨f, hf, hcovers, -⟩ := hR.coversField h g hg
    rw [hcovers.type_eq]
    exact hlevel.isKnown_type f hf

/-- **The covered schema passes under every ceiling under which the covering one does.** -/
theorem check_eq_ok (hR : Covering R) (h : R schema schema')
    (hok : check schema ceiling = .ok ()) : check schema' ceiling = .ok () := by
  induction schema using levelInduction generalizing schema' ceiling with
  | level fields ih =>
    obtain ⟨hceiling, hlevel, hchildren⟩ := check_eq_ok_iff.mp hok
    refine check_eq_ok_iff.mpr ⟨hceiling, hR.levelWellFormed h hlevel, fun g hg hobject => ?_⟩
    obtain ⟨f, hf, hcovers, hbelow⟩ := hR.coversField h g hg
    exact ih f hf hbelow (hchildren f hf (hcovers.type_eq ▸ hobject))

/-- **A payload that passes the covering schema passes the covered one.** -/
theorem check_payload_eq_ok (hR : Covering R) (h : R schema schema')
    (hok : Payload.check schema payload = .ok ()) : Payload.check schema' payload = .ok () := by
  induction schema using levelInduction generalizing schema' payload with
  | level fields ih =>
    refine Payload.check_eq_ok_iff.mpr fun g hg => ?_
    obtain ⟨f, hf, hcovers, hbelow⟩ := hR.coversField h g hg
    exact Payload.checkField_eq_ok_of_covers hcovers (fun entries => ih f hf hbelow)
      (Payload.check_eq_ok_iff.mp hok f hf)

end Covering

end Schema

end ConfigSchema
