import ConfigSchema.Proofs.Schema.Covering

/-!
# Relaxing a schema

A schema is relaxed by asking for less: a field that was required becomes optional, or is not
declared any more (`ConfigSchema.Schema.Relaxes`). This may happen at any level and at several
places at once, below objects and below arrays of objects. Requiredness is looked at twice, where
a field is absent and where an array is empty, and a field that is gone is looked at nowhere.

A relaxed schema is covered by the schema (`ConfigSchema.Schema.covering_relaxes`), so it turns
down nothing that the schema accepts, and it passes its own check under the same ceilings
(`ConfigSchema.Schema.accepts_of_relaxes`).
-/

namespace ConfigSchema

namespace Schema

/-- **A schema is relaxed to another one**: fields are left out, flags that require a field are
cleared, and children are relaxed in turn, whatever the type of their field is. All else
stays. -/
inductive Relaxes : List Field → List Field → Prop
  /-- There is nothing to relax. -/
  | nil : Relaxes [] []
  /-- A field is left out. -/
  | delete {f : Field} {fields fields' : List Field} (rest : Relaxes fields fields') :
    Relaxes (f :: fields) fields'
  /-- A field stays. It may be required no longer, and its children may be relaxed. -/
  | keep {label : String} {type : FieldType} {required required' isArray : Bool}
      {children children' fields fields' : List Field}
      (cleared : required' = true → required = true) (below : Relaxes children children')
      (rest : Relaxes fields fields') :
    Relaxes (⟨label, type, required, isArray, children⟩ :: fields)
      (⟨label, type, required', isArray, children'⟩ :: fields')

variable {schema schema' : Schema}

/-- The labels that are left stand in their order. -/
theorem Relaxes.sublist_labels (h : Relaxes schema schema') :
    (schema'.map Field.label).Sublist (schema.map Field.label) := by
  induction h with
  | nil => exact .slnil
  | delete _ ih => exact ih.cons _
  | keep _ _ _ _ ih => exact ih.cons_cons _

/-- **A field that is left is covered** by the field that it was. -/
theorem Relaxes.coversField (h : Relaxes schema schema') :
    ∀ g ∈ schema', CoversField Relaxes schema g := by
  induction h with
  | nil =>
    intro g hg
    cases hg
  | delete _ ih => exact fun g hg => (ih g hg).cons
  | keep hcleared hbelow _ _ ih =>
    exact forall_coversField_cons ⟨rfl, rfl, rfl, hcleared⟩ hbelow ih

/-- **A schema covers what it is relaxed to.** -/
theorem covering_relaxes : Covering Relaxes where
  coversField := Relaxes.coversField
  nodup_labels h hnodup := hnodup.sublist h.sublist_labels

/-- **Relaxing a schema never rejects more.** A payload that passes the schema passes the relaxed
one, and under a ceiling under which the schema passes its own check the relaxed one does. -/
theorem accepts_of_relaxes (h : Relaxes schema schema') :
    (∀ payload, Payload.check schema payload = .ok () → Payload.check schema' payload = .ok ()) ∧
      ∀ ceiling, check schema ceiling = .ok () → check schema' ceiling = .ok () :=
  ⟨fun _ => covering_relaxes.check_payload_eq_ok h, fun _ => covering_relaxes.check_eq_ok h⟩

/-! ### A schema that is relaxed at two levels -/

/-- An owner and ports, with everything required. -/
def strictPorts : Schema :=
  [⟨"owner", .string, true, false, []⟩,
    ⟨"ports", .object, true, true,
      [⟨"number", .int, true, false, []⟩, ⟨"tag", .string, true, false, []⟩]⟩]

/-- The same without an owner and without tags, and with nothing required. -/
def loosePorts : Schema :=
  [⟨"ports", .object, false, true, [⟨"number", .int, false, false, []⟩]⟩]

theorem relaxes_loosePorts : Relaxes strictPorts loosePorts :=
  .delete (.keep (by decide) (.keep (by decide) .nil (.delete .nil)) .nil)

/-- What the strict schema accepts the loose one accepts; and it accepts more. -/
theorem accepts_of_relaxes_loosePorts :
    let payload : Payload :=
      [("owner", .string "ops"),
        ("ports", .list [.map [("number", .integer 80), ("tag", .string "web")]])]
    Relaxes strictPorts loosePorts ∧
      Payload.check strictPorts payload = .ok () ∧ Payload.check loosePorts payload = .ok () ∧
      check strictPorts 1 = .ok () ∧ check loosePorts 1 = .ok () ∧
      Payload.check strictPorts [("ports", .list [])] = .error (.missingRequiredField "owner") ∧
      Payload.check loosePorts [("ports", .list [])] = .ok () := by
  intro payload
  obtain ⟨hpayload, hschema⟩ := accepts_of_relaxes relaxes_loosePorts
  exact ⟨relaxes_loosePorts, rfl, hpayload payload rfl, rfl, hschema 1 rfl, rfl, rfl⟩

end Schema

end ConfigSchema
