import ConfigSchema.Proofs.Payload.Skeleton
import ConfigSchema.Proofs.Schema.Levels

/-!
# What of a schema does not matter

Children may be declared on a field of any type, and they mean nothing unless the type is
`object`. Three recursions go down a schema, for its depth, for its own check and for the check of
a payload, and each of them decides for itself where to go down. They agree: all three give for a
schema what they give for the *pruned* one (`ConfigSchema.Schema.pruned`), in which only `object`
fields have children. The first two do not look at the flags of a field either, so these may be
cleared as well.

Two schemas that differ in what does not matter have one pruned schema. So they are of one depth,
and both checks give them the same answers, errors included
(`ConfigSchema.Schema.answers_eq_of_pruned_eq`).
-/

namespace ConfigSchema

/-! ### Pruned schemas -/

mutual

/-- The field without children that mean nothing, and with its flags kept or cleared. -/
def Field.pruned (keepFlags : Bool) : Field → Field
  | ⟨label, type, required, isArray, children⟩ =>
    ⟨label, type, keepFlags && required, keepFlags && isArray,
      if type.isObject then Schema.pruned keepFlags children else []⟩

/-- **The schema without children that mean nothing**, at all levels: a field that is no `object`
has none. The flags of the fields are kept, or cleared as well. -/
def Schema.pruned (keepFlags : Bool) : List Field → List Field
  | [] => []
  | f :: fs => f.pruned keepFlags :: Schema.pruned keepFlags fs

end

@[simp] theorem Field.pruned_label (keepFlags : Bool) (f : Field) :
    (f.pruned keepFlags).label = f.label := by
  cases f
  rfl

/-- **What pruning keeps of a field**: two fields have one pruned field exactly if they have one
label and one type, the same flags if these are kept, and one pruned schema below them if they are
`object` fields. -/
theorem Field.pruned_eq_pruned_iff {keepFlags : Bool} {f g : Field} :
    f.pruned keepFlags = g.pruned keepFlags ↔
      f.label = g.label ∧ f.type = g.type ∧
        (keepFlags = true → f.required = g.required ∧ f.isArray = g.isArray) ∧
        (f.type = .object →
          Schema.pruned keepFlags f.children = Schema.pruned keepFlags g.children) := by
  obtain ⟨label, type, required, isArray, children⟩ := f
  obtain ⟨label', type', required', isArray', children'⟩ := g
  rw [Field.pruned, Field.pruned, Field.mk.injEq]
  refine and_congr_right fun _ => and_congr_right fun htype => ?_
  subst htype
  rw [← and_assoc]
  refine and_congr ?_ ?_
  · cases keepFlags <;> simp
  · by_cases hobject : type = .object
    · simp [hobject, FieldType.isObject]
    · rw [if_neg (mt FieldType.isObject_eq_true_iff.mp hobject)]
      simp [hobject, mt FieldType.isObject_eq_true_iff.mp hobject]

/-! ### Depth -/

mutual

theorem Field.depth_pruned (keepFlags : Bool) : ∀ f : Field, (f.pruned keepFlags).depth = f.depth
  | ⟨label, type, required, isArray, children⟩ => by
    rw [Field.pruned, Field.depth, Field.depth]
    split
    · rw [Schema.depth_pruned keepFlags children]
    · rfl

/-- **Pruning keeps the depth.** -/
theorem Schema.depth_pruned (keepFlags : Bool) :
    ∀ schema : Schema, Schema.depth (Schema.pruned keepFlags schema) = Schema.depth schema
  | [] => rfl
  | f :: fs => by
    rw [Schema.pruned, Schema.depth, Schema.depth, f.depth_pruned keepFlags,
      Schema.depth_pruned keepFlags fs]

end

/-! ### The check of a schema -/

namespace Schema

mutual

/-- The check of a field does not look at what is pruned: it goes down from an `object` field,
and looks at nothing but the type of another one. -/
theorem checkField_pruned (keepFlags : Bool) :
    ∀ f : Field, checkField (f.pruned keepFlags) = checkField f
  | ⟨label, type, required, isArray, children⟩ => by
    funext remaining
    cases type with
    | object =>
      show (withinDepth (remaining - 1) (checkFields (pruned keepFlags children) [])).mapError _ =
        (withinDepth (remaining - 1) (checkFields children [])).mapError _
      rw [checkFields_pruned keepFlags children]
    | _ => rfl

/-- Neither does the walk over the fields of a level. -/
theorem checkFields_pruned (keepFlags : Bool) :
    ∀ (fields : List Field) (seen : List String),
      checkFields (pruned keepFlags fields) seen = checkFields fields seen
  | [], _ => rfl
  | f :: fs, seen => by
    funext remaining
    rw [pruned, checkFields, checkFields, Field.pruned_label, checkField_pruned keepFlags f,
      checkFields_pruned keepFlags fs]

end

/-- **Pruning does not change what the check of a schema answers.** -/
theorem check_pruned (keepFlags : Bool) (schema : Schema) :
    check (pruned keepFlags schema) = check schema := by
  funext ceiling
  rw [check, check, checkFields_pruned]

end Schema

/-! ### The check of a payload -/

namespace Payload

mutual

/-- The check of a field does not look at children that mean nothing. -/
theorem checkField_pruned : ∀ f : Field, checkField (f.pruned true) = checkField f
  | ⟨label, type, required, isArray, children⟩ => by
    -- the children are looked at only where an `object` field holds a map
    have hone : checkOne (Field.pruned true ⟨label, type, required, isArray, children⟩) =
        checkOne ⟨label, type, required, isArray, children⟩ := by
      funext v
      refine checkValue_congr rfl fun entries entries' (hobject : type = .object) hv hw => ?_
      obtain rfl : entries = entries' := Value.map.inj (hv.symm.trans hw)
      show check (if type.isObject then Schema.pruned true children else []) entries = _
      rw [if_pos (FieldType.isObject_eq_true_iff.mpr hobject), check_pruned children]
    funext payload
    rw [checkField_eq, checkField_eq, hone]
    rfl

/-- **Pruning does not change what the check of a payload answers**, if the flags are kept. -/
theorem check_pruned : ∀ schema : Schema, check (Schema.pruned true schema) = check schema
  | [] => rfl
  | f :: fs => by
    funext payload
    show (checkField (f.pruned true) payload >>= fun _ => check (Schema.pruned true fs) payload) =
      (checkField f payload >>= fun _ => check fs payload)
    rw [checkField_pruned f, check_pruned fs]

end

end Payload

namespace Schema

/-- **What of a schema does not matter.**

* Two schemas that differ only in the children of fields that are no `object`, at any levels, are
  of one depth, and get the same answer from their own check under every ceiling. Every payload
  gets the same answer from both, the error included.
* Two schemas that differ, besides, in the flags of their fields are still of one depth, and get
  the same answer from their own check. -/
theorem answers_eq_of_pruned_eq (schema schema' : Schema) :
    (pruned true schema = pruned true schema' →
      depth schema = depth schema' ∧
        (∀ ceiling, check schema ceiling = check schema' ceiling) ∧
          ∀ payload, Payload.check schema payload = Payload.check schema' payload) ∧
    (pruned false schema = pruned false schema' →
      depth schema = depth schema' ∧
        ∀ ceiling, check schema ceiling = check schema' ceiling) := by
  have hown (keepFlags : Bool) (h : pruned keepFlags schema = pruned keepFlags schema') :
      depth schema = depth schema' ∧
        ∀ ceiling, check schema ceiling = check schema' ceiling := by
    refine ⟨?_, fun ceiling => ?_⟩
    · rw [← depth_pruned keepFlags schema, h, depth_pruned]
    · rw [← check_pruned keepFlags schema, h, check_pruned]
  refine ⟨fun h => ⟨(hown true h).1, (hown true h).2, fun payload => ?_⟩, hown false⟩
  rw [← Payload.check_pruned schema, h, Payload.check_pruned]

/-! ### A schema with children that mean nothing -/

/-- Ports with a number and a tag. -/
def taggedWithout : Schema :=
  [⟨"ports", .object, true, true,
    [⟨"number", .int, true, false, []⟩, ⟨"tag", .string, false, false, []⟩]⟩]

/-- Ports whose tag has children that would not pass a check: a label is empty, a label occurs
twice, and a type is not recognised. -/
def taggedWith : Schema :=
  [⟨"ports", .object, true, true,
    [⟨"number", .int, true, false, []⟩,
      ⟨"tag", .string, false, false,
        [⟨"", .object, true, false, [⟨"x", .object, true, true, []⟩]⟩,
          ⟨"x", .unknown "uuid", true, false, []⟩, ⟨"x", .int, false, true, []⟩]⟩]⟩]

/-- The same, with all flags turned around. -/
def taggedOtherwise : Schema :=
  [⟨"ports", .object, false, false,
    [⟨"number", .int, false, true, []⟩, ⟨"tag", .string, true, true, taggedWith⟩]⟩]

/-- The children of the tag change no answer, and the flags change none but that for a payload. -/
theorem answers_eq_of_pruned_eq_tagged :
    let payload : Payload := [("ports", .list [.map [("tag", .string "web")]])]
    pruned true taggedWithout = pruned true taggedWith ∧
      pruned false taggedWithout = pruned false taggedOtherwise ∧
      depth taggedWith = 1 ∧ check taggedWith 1 = .ok () ∧
      check taggedOtherwise 0 = .error (.invalidField "ports" .depthExceeded) ∧
      Payload.check taggedWith payload = .error (.invalidArrayElement "ports" 0
        (.invalidObject "ports" (.missingRequiredField "number"))) ∧
      Payload.check taggedOtherwise payload =
        .error (.typeMismatch "ports" .object .list) := by
  intro payload
  have hwith : pruned true taggedWithout = pruned true taggedWith := rfl
  have hotherwise : pruned false taggedWithout = pruned false taggedOtherwise := rfl
  obtain ⟨hdepth, hcheck, hpayload⟩ := (answers_eq_of_pruned_eq taggedWithout taggedWith).1 hwith
  obtain ⟨-, hcheck'⟩ := (answers_eq_of_pruned_eq taggedWithout taggedOtherwise).2 hotherwise
  exact ⟨hwith, hotherwise, hdepth.symm.trans rfl, (hcheck 1).symm.trans rfl,
    (hcheck' 0).symm.trans rfl, (hpayload payload).symm.trans rfl, rfl⟩

end Schema

end ConfigSchema
