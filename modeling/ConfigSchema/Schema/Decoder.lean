import ConfigSchema.Reading.Record
import ConfigSchema.Schema.Basic

/-!
# Reading schemas

A schema is an array of fields, and a field is a record with the members `label`, `type`,
`required`, `array` and `fields`, of which the first two are needed. Any string is accepted
as a type; whether it is recognised is for the check of the schema.

Each field and each schema is a level of nesting of its own, so the recursion is on the
number of levels that are left.
-/

namespace ConfigSchema

open Reading

/-- The members of a field that have been read. -/
structure Field.Draft where
  /-- The label. -/
  label : Option String := none
  /-- The type. -/
  type : Option FieldType := none
  /-- Whether the field must be present. -/
  required : Option Bool := none
  /-- Whether the field holds a list. -/
  isArray : Option Bool := none
  /-- The schema of the level below. -/
  children : Option Schema := none

/-- A field as a record: members that are not given are false or empty. -/
def Field.shape : RecordShape Field Field.Draft where
  name := "struct FieldDeclaration"
  blank := {}
  finish draft := do
    let label ← needed "label" draft.label
    let type ← needed "type" draft.type
    return ⟨label, type, draft.required.getD false, draft.isArray.getD false,
      draft.children.getD []⟩

/-- A type, by its name. -/
def FieldType.decoder : Decoder FieldType := Decoder.string.map FieldType.parse

/-- The members of a field, given a decoder for the schema of the level below. -/
def Field.members (children : Decoder Schema) : List (Member Field.Draft) :=
  [.of "label" false Draft.label (fun x d => { d with label := some x }) Decoder.string,
    .of "type" false Draft.type (fun x d => { d with type := some x }) FieldType.decoder,
    .of "required" true Draft.required (fun x d => { d with required := some x })
      Decoder.boolean,
    .of "array" true Draft.isArray (fun x d => { d with isArray := some x }) Decoder.boolean,
    .of "fields" true Draft.children (fun x d => { d with children := some x }) children]

mutual

/-- Reads a field of at most the given nesting. -/
def Field.decoder : Nat → Decoder Field
  | 0 => Field.shape.decoder none
  | n + 1 => Field.shape.decoder (some (Field.members (Schema.decoder n)))

/-- Reads a schema of at most the given nesting. -/
def Schema.decoder : Nat → Decoder Schema
  | 0 => Decoder.list none
  | n + 1 => Decoder.list (some (Field.decoder n))

end

end ConfigSchema
