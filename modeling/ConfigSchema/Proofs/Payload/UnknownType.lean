import ConfigSchema.Proofs.Payload.Damage

/-!
# Fields of unknown type

A schema that has passed its own check has no field of unknown type, but a payload can be checked
against any schema. Such a field accepts no value: it is judged when there is a value to judge, and
then it is at fault. So it passes in two cases only, in which there is none
(`ConfigSchema.Payload.checkField_eq_ok_iff_of_unknown`): the field is absent, or it is an array
without elements, and in both cases it is not required.

The second case is all that keeps an unknown type from being found wherever a payload has the key
of its field (`ConfigSchema.Payload.check_refuses_unknownType`): what passes has passed at every
place that steps lead to (`ConfigSchema.Payload.Leads.check_eq_ok`), however deep.
-/

namespace ConfigSchema

namespace Payload

variable {schema level : Schema} {payload entries : Payload} {steps : List Step} {f : Field}
  {v : Value}

/-- **What passes has passed at every place**: where steps lead to a level and a map, the map
passes against the level. -/
theorem Leads.check_eq_ok (h : Leads schema payload steps level entries)
    (hcheck : check schema payload = .ok ()) : check level entries = .ok () := by
  induction h with
  | here => exact hcheck
  | into hf hfits hobject hfind _ ih =>
    have hfield := check_eq_ok_iff.mp hcheck _ hf
    obtain ⟨-, hmap⟩ := hfits.checkOne_of_find? hfield hfind
    exact ih ((checkValue_eq_ok_iff.mp hmap).2 _ hobject rfl)

/-- A field of unknown type accepts no value. -/
theorem checkOne_ne_ok_of_unknown (hunknown : f.type.isKnown = false) :
    checkOne f v ≠ .ok () := by
  obtain ⟨name, hname⟩ := FieldType.isKnown_eq_false_iff.mp hunknown
  intro h
  have haccepts := (checkValue_eq_ok_iff.mp h).1
  rw [hname] at haccepts
  cases haccepts

/-- **A field of unknown type passes** exactly if there is no value to judge, and none is
required. -/
theorem checkField_eq_ok_iff_of_unknown (hunknown : f.type.isKnown = false) :
    checkField f payload = .ok () ↔
      f.required = false ∧ (Keyed.get? f.label payload = none ∨
        (f.isArray = true ∧ Keyed.get? f.label payload = some (.list []))) := by
  rw [checkField_eq_ok_iff]
  constructor
  · rintro (⟨hget, hoptional⟩ | ⟨v, -, -, hv⟩ | ⟨items, hget, harray, hrequired, hitems⟩)
    · exact ⟨hoptional, Or.inl hget⟩
    · exact absurd hv (checkOne_ne_ok_of_unknown hunknown)
    · cases items with
      | nil =>
        have hoptional : f.required = false := Bool.eq_false_iff.mpr fun h => hrequired h rfl
        exact ⟨hoptional, Or.inr ⟨harray, hget⟩⟩
      | cons w rest =>
        exact absurd (hitems w List.mem_cons_self) (checkOne_ne_ok_of_unknown hunknown)
  · rintro ⟨hoptional, hget | ⟨harray, hget⟩⟩
    · exact Or.inl ⟨hget, hoptional⟩
    · refine Or.inr (Or.inr ⟨[], hget, harray, fun hrequired => ?_, fun w hw => by cases hw⟩)
      rw [hoptional] at hrequired
      cases hrequired

/-- **A value for a field of unknown type is refused, at any depth.** Steps lead from a schema,
checked or not, and a payload to a level and a map that holds a value at the label of a field of
unknown type. Then the check of the payload fails, unless the field is an array that is not
required and the value is the list without elements. -/
theorem check_refuses_unknownType (hleads : Leads schema payload steps level entries)
    (hf : f ∈ level) (hunknown : f.type.isKnown = false)
    (hget : Keyed.get? f.label entries = some v)
    (hvalue : ¬ (f.isArray = true ∧ f.required = false ∧ v = .list [])) :
    ∃ e, check schema payload = .error e := by
  cases hcheck : check schema payload with
  | error e => exact ⟨e, rfl⟩
  | ok =>
    have hfield := check_eq_ok_iff.mp (hleads.check_eq_ok hcheck) f hf
    obtain ⟨hoptional, hnone | ⟨harray, hempty⟩⟩ :=
      (checkField_eq_ok_iff_of_unknown hunknown).mp hfield
    · rw [hget] at hnone
      cases hnone
    · obtain rfl : v = .list [] := Option.some.inj (hget.symm.trans hempty)
      exact absurd ⟨harray, hoptional, rfl⟩ hvalue

/-! ### Tags of an unknown type -/

/-- Tags of a type that nobody knows. -/
def uuidTags : Field := ⟨"tags", .unknown "uuid", false, true, []⟩

/-- In the second of two maps a single tag is refused. -/
theorem check_refuses_unknownType_secondMap :
    let pools : Field := ⟨"pools", .object, false, true, [uuidTags]⟩
    let entries : Payload := [("tags", .list [.string "a"])]
    let payload : Payload := [("pools", .list [.map [], .map entries])]
    Leads [pools] payload [⟨"pools", some 1⟩] pools.children entries ∧ uuidTags ∈ pools.children ∧
      uuidTags.type.isKnown = false ∧
      Keyed.get? uuidTags.label entries = some (.list [.string "a"]) ∧
      ¬ (uuidTags.isArray = true ∧ uuidTags.required = false ∧
        Value.list [.string "a"] = .list []) ∧
      ∃ e, check [pools] payload = .error e := by
  intro pools entries payload
  have hfits : Step.Fits ⟨"pools", some 1⟩ pools payload :=
    ⟨rfl, fun i hi => ⟨rfl, _, rfl, Option.some.inj hi ▸ by decide⟩⟩
  have hleads : Leads [pools] payload [⟨"pools", some 1⟩] pools.children entries :=
    .into List.mem_cons_self hfits rfl rfl .here
  have hf : uuidTags ∈ pools.children := List.mem_cons_self
  have hvalue : ¬ (uuidTags.isArray = true ∧ uuidTags.required = false ∧
      Value.list [.string "a"] = .list []) := by
    rintro ⟨-, -, h⟩
    cases h
  exact ⟨hleads, hf, rfl, rfl, hvalue, check_refuses_unknownType hleads hf rfl rfl hvalue⟩

/-- **Without elements there is nothing to refuse**: the payload has the key of the tags, and
passes. -/
theorem unknownType_passes_without_elements :
    let payload : Payload := [("tags", .list [])]
    Leads [uuidTags] payload [] [uuidTags] payload ∧ uuidTags ∈ [uuidTags] ∧
      uuidTags.type.isKnown = false ∧
      Keyed.get? uuidTags.label payload = some (.list []) ∧ check [uuidTags] payload = .ok () :=
  ⟨.here, List.mem_cons_self, rfl, rfl, rfl⟩

end Payload

end ConfigSchema
