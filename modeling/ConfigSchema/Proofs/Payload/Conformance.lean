import ConfigSchema.Proofs.Payload.Verdict

/-!
# Conforming payloads

What it means for a payload to conform to a schema is a relation between the two, without
any order of checking (`ConfigSchema.Conforms`): every field that is declared admits what
the payload holds at its label, and a value has a declared type if it is of the kind that
the type stands for, where the map of an `object` field has to conform to the children.
Nothing is asked of the schema: labels may occur twice, and a type that is not recognised is
the type of no value.

The check of a payload decides the relation (`ConfigSchema.Payload.check_eq_ok_iff_conforms`).
-/

namespace ConfigSchema

mutual

/-- **A value has a declared type.** The children matter to an `object` alone. -/
inductive Value.HasType : FieldType → Schema → Value → Prop
  /-- A string is a `string`. -/
  | string {children : Schema} (s : String) : Value.HasType .string children (.string s)
  /-- An integer is an `int`. -/
  | int {children : Schema} (n : Int64) : Value.HasType .int children (.integer n)
  /-- A floating point number is a `float`. -/
  | float {children : Schema} (x : Binary64) : Value.HasType .float children (.float x)
  /-- A floating point number is a `decimal` too. -/
  | decimal {children : Schema} (x : Binary64) : Value.HasType .decimal children (.float x)
  /-- A truth value is a `boolean`. -/
  | boolean {children : Schema} (b : Bool) : Value.HasType .boolean children (.boolean b)
  /-- A map is an `object` if it conforms to the children. -/
  | object {children : Schema} {entries : Payload} (h : Conforms children entries) :
    Value.HasType .object children (.map entries)

/-- **A field admits what a payload holds at its label.** -/
inductive Field.Admits : Field → Payload → Prop
  /-- Nothing, if the field is not required. -/
  | absent {f : Field} {payload : Payload} (get_eq : Keyed.get? f.label payload = none)
      (optional : f.required = false) : Field.Admits f payload
  /-- A value of the declared type, if the field is no array. -/
  | one {f : Field} {payload : Payload} {v : Value}
      (get_eq : Keyed.get? f.label payload = some v) (isOne : f.isArray = false)
      (hasType : Value.HasType f.type f.children v) : Field.Admits f payload
  /-- A list of arbitrary values that are all of the declared type, if the field is an array;
  it has elements if the field is required. -/
  | array {f : Field} {payload : Payload} {items : List Value}
      (get_eq : Keyed.get? f.label payload = some (.list items)) (isArray : f.isArray = true)
      (nonempty : f.required = true → items ≠ [])
      (hasType : ∀ v ∈ items, Value.HasType f.type f.children v) : Field.Admits f payload

/-- **A payload conforms to a schema**: every declared field admits what the payload holds at
its label. -/
inductive Conforms : Schema → Payload → Prop
  /-- All fields are taken alike, whatever their order. -/
  | intro {schema : Schema} {payload : Payload}
      (admits : ∀ f ∈ schema, Field.Admits f payload) : Conforms schema payload

end

/-- A payload conforms exactly if every field admits what it holds. -/
theorem conforms_iff {schema : Schema} {payload : Payload} :
    Conforms schema payload ↔ ∀ f ∈ schema, f.Admits payload :=
  ⟨fun h => by cases h; assumption, .intro⟩

/-- A value has a declared type exactly if the type accepts its kind, and the map that it is,
if the type is `object`, conforms to the children. -/
theorem Value.hasType_iff {type : FieldType} {children : Schema} {v : Value} :
    v.HasType type children ↔
      type.accepts v.kind = true ∧
        ∀ entries, type = .object → v = .map entries → Conforms children entries := by
  constructor
  · intro h
    cases h with
    | object h => exact ⟨rfl, fun entries _ heq => by cases heq; exact h⟩
    | _ => exact ⟨rfl, fun entries ho => by cases ho⟩
  · rintro ⟨haccepts, hobject⟩
    match type, v, haccepts with
    | .string, .string s, _ => exact .string s
    | .int, .integer n, _ => exact .int n
    | .float, .float x, _ => exact .float x
    | .decimal, .float x, _ => exact .decimal x
    | .boolean, .boolean b, _ => exact .boolean b
    | .object, .map entries, _ => exact .object (hobject entries rfl rfl)

namespace Payload

/-- The check of one value decides whether it has the declared type, if the check of the
children decides conformance to them. -/
theorem checkOne_eq_ok_iff_hasType {f : Field} {v : Value}
    (h : ∀ entries, check f.children entries = .ok () ↔ Conforms f.children entries) :
    checkOne f v = .ok () ↔ v.HasType f.type f.children := by
  rw [checkOne, checkValue_eq_ok_iff, Value.hasType_iff]
  simp only [h]

/-- The check of a field decides whether the field admits what the payload holds, if the
check of the children decides conformance to them. -/
theorem checkField_eq_ok_iff_admits {f : Field} {payload : Payload}
    (h : ∀ entries, check f.children entries = .ok () ↔ Conforms f.children entries) :
    checkField f payload = .ok () ↔ f.Admits payload := by
  rw [checkField_eq_ok_iff]
  simp only [checkOne_eq_ok_iff_hasType h]
  constructor
  · rintro (⟨hget, hoptional⟩ | ⟨v, hget, hone, hv⟩ | ⟨items, hget, harray, hne, hitems⟩)
    · exact .absent hget hoptional
    · exact .one hget hone hv
    · exact .array hget harray hne hitems
  · intro hadmits
    cases hadmits with
    | absent hget hoptional => exact Or.inl ⟨hget, hoptional⟩
    | one hget hone hv => exact Or.inr (Or.inl ⟨_, hget, hone, hv⟩)
    | array hget harray hne hitems => exact Or.inr (Or.inr ⟨_, hget, harray, hne, hitems⟩)

/-- **The check of a payload decides conformance**, for every schema, checked or not, and
every payload. -/
theorem check_eq_ok_iff_conforms (schema : Schema) (payload : Payload) :
    check schema payload = .ok () ↔ Conforms schema payload := by
  induction schema using Schema.levelInduction generalizing payload with
  | level fields ih =>
    rw [check_eq_ok_iff, conforms_iff]
    constructor
    · intro h f hf
      exact (checkField_eq_ok_iff_admits (ih f hf)).mp (h f hf)
    · intro h f hf
      exact (checkField_eq_ok_iff_admits (ih f hf)).mpr (h f hf)

end Payload

end ConfigSchema
