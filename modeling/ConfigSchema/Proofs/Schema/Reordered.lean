import ConfigSchema.Proofs.Schema.Covering

/-!
# Reordering a schema

The fields of a level stand in an order, and both checks go through them in this order. It decides
which fault is found first, and nothing else: if the fields of a level change places, at any
number of levels at once (`ConfigSchema.Schema.Reordered`), every payload and every ceiling gets
the same verdict as before (`ConfigSchema.Schema.verdicts_of_reordered`).

A schema covers what it is reordered to (`ConfigSchema.Schema.covering_reordered`). The reordering
can be undone, so it is covered by it, too, and what one of the two accepts the other accepts.
-/

namespace ConfigSchema

namespace Schema

/-- **A schema is reordered to another one**: the fields of a level are permuted, and the children
of each of them are reordered in turn, whatever its type is. -/
inductive Reordered : List Field → List Field → Prop
  /-- There is nothing to reorder. -/
  | nil : Reordered [] []
  /-- The first field keeps its place. Its children are reordered, and so are the fields behind
  it. -/
  | cons {label : String} {type : FieldType} {required isArray : Bool}
      {children children' fields fields' : List Field} (below : Reordered children children')
      (rest : Reordered fields fields') :
    Reordered (⟨label, type, required, isArray, children⟩ :: fields)
      (⟨label, type, required, isArray, children'⟩ :: fields')
  /-- The first two fields change places. -/
  | swap (f g : Field) (fields : List Field) : Reordered (g :: f :: fields) (f :: g :: fields)
  /-- What is reordered is reordered once more. -/
  | trans {fields fields' fields'' : List Field} (first : Reordered fields fields')
      (second : Reordered fields' fields'') : Reordered fields fields''

variable {schema schema' : Schema}

namespace Reordered

/-- To leave all in place is to reorder. -/
theorem refl (schema : Schema) : Reordered schema schema := by
  induction schema using levelInduction with
  | level fields ih =>
    induction fields with
    | nil => exact .nil
    | cons f fs ihfs =>
      obtain ⟨hf, hfs⟩ := List.forall_mem_cons.mp ih
      obtain ⟨label, type, required, isArray, children⟩ := f
      exact .cons hf (ihfs hfs)

/-- **A reordering can be undone.** -/
theorem symm (h : Reordered schema schema') : Reordered schema' schema := by
  induction h with
  | nil => exact .nil
  | cons _ _ ihbelow ihrest => exact .cons ihbelow ihrest
  | swap f g fields => exact .swap g f fields
  | trans _ _ ihfirst ihsecond => exact ihsecond.trans ihfirst

/-- The labels of the first level are permuted. -/
theorem perm_labels (h : Reordered schema schema') :
    (schema.map Field.label).Perm (schema'.map Field.label) := by
  induction h with
  | nil => exact .nil
  | cons _ _ _ ih => exact ih.cons _
  | swap f g fields => exact .swap f.label g.label _
  | trans _ _ ihfirst ihsecond => exact ihfirst.trans ihsecond

/-- **Every field is covered by the field that it was**, wherever that stood. -/
theorem coversField (h : Reordered schema schema') :
    ∀ g ∈ schema', CoversField Reordered schema g := by
  induction h with
  | nil =>
    intro g hg
    cases hg
  | cons hbelow _ _ ih => exact forall_coversField_cons ⟨rfl, rfl, rfl, id⟩ hbelow ih
  | swap f g fields =>
    intro g' hg'
    exact ⟨g', (List.Perm.swap f g fields).mem_iff.mpr hg', .refl g', .refl g'.children⟩
  | trans _ _ ihfirst ihsecond =>
    intro g hg
    obtain ⟨f', hf', hcovers', hbelow'⟩ := ihsecond g hg
    obtain ⟨f, hf, hcovers, hbelow⟩ := ihfirst f' hf'
    exact ⟨f, hf, hcovers.trans hcovers', hbelow.trans hbelow'⟩

end Reordered

/-- **A schema covers what it is reordered to.** -/
theorem covering_reordered : Covering Reordered where
  coversField := Reordered.coversField
  nodup_labels h := h.perm_labels.nodup_iff.mp

/-- **Verdicts do not depend on the order of the fields**: a schema and what it is reordered to
accept the same payloads, pass their own check under the same ceilings, and are of one depth. -/
theorem verdicts_of_reordered (h : Reordered schema schema') :
    (∀ payload, Payload.check schema payload = .ok () ↔ Payload.check schema' payload = .ok ()) ∧
      (∀ ceiling, check schema ceiling = .ok () ↔ check schema' ceiling = .ok ()) ∧
      depth schema = depth schema' := by
  refine ⟨fun payload => ⟨covering_reordered.check_payload_eq_ok h,
    covering_reordered.check_payload_eq_ok h.symm⟩, fun ceiling =>
    ⟨covering_reordered.check_eq_ok h, covering_reordered.check_eq_ok h.symm⟩, ?_⟩
  exact Nat.le_antisymm (covering_reordered.depth_le h.symm) (covering_reordered.depth_le h)

/-! ### A schema that is reordered at two levels -/

/-- A name and a server with a host and a port. -/
def nameFirst : Schema :=
  [⟨"name", .string, true, false, []⟩,
    ⟨"server", .object, true, false,
      [⟨"host", .string, true, false, []⟩, ⟨"port", .int, true, false, []⟩]⟩]

/-- The server, with the port before the host, and then the name. -/
def serverFirst : Schema :=
  [⟨"server", .object, true, false,
      [⟨"port", .int, true, false, []⟩, ⟨"host", .string, true, false, []⟩]⟩,
    ⟨"name", .string, true, false, []⟩]

theorem reordered_serverFirst : Reordered nameFirst serverFirst :=
  .trans (.swap _ _ []) (.cons (.swap _ _ []) (.refl _))

/-- A payload without a name and without a port fails either way, for the name or for the port:
the order decides which fault is found first. -/
theorem verdicts_of_reordered_serverFirst :
    let payload : Payload := [("server", .map [("host", .string "localhost")])]
    Reordered nameFirst serverFirst ∧
      (Payload.check nameFirst payload = .ok () ↔ Payload.check serverFirst payload = .ok ()) ∧
      (check nameFirst 0 = .ok () ↔ check serverFirst 0 = .ok ()) ∧
      depth nameFirst = depth serverFirst ∧
      Payload.check nameFirst payload = .error (.missingRequiredField "name") ∧
      Payload.check serverFirst payload =
        .error (.invalidObject "server" (.missingRequiredField "port")) := by
  intro payload
  obtain ⟨hpayload, hschema, hdepth⟩ := verdicts_of_reordered reordered_serverFirst
  exact ⟨reordered_serverFirst, hpayload payload, hschema 0, hdepth, rfl, rfl⟩

end Schema

end ConfigSchema
