import ConfigSchema.Json.Writer
import ConfigSchema.Schema.Basic

/-!
# Writing a schema

A schema is written as an array of objects, one for each field, with the members `label`,
`type`, `required`, `array` and `fields` in this order; `fields` is left out where there
are no children. Of a type only the name is written.
-/

namespace ConfigSchema

mutual

/-- The JSON text of a field. -/
def Field.write : Field → List Char
  | ⟨label, type, required, isArray, children⟩ =>
    let members :=
      [Json.writeMember "label" (Json.writeString label),
        Json.writeMember "type" (Json.writeString type.name),
        Json.writeMember "required" (Json.writeBoolean required),
        Json.writeMember "array" (Json.writeBoolean isArray)]
    let nested := Schema.writeFields children
    Json.writeObject
      (if nested.isEmpty then members
        else members ++ [Json.writeMember "fields" (Json.writeArray nested)])

/-- The JSON texts of the fields of a level. -/
def Schema.writeFields : List Field → List (List Char)
  | [] => []
  | f :: fs => f.write :: Schema.writeFields fs

end

/-- The JSON text of a schema. -/
def Schema.write (schema : Schema) : List Char := Json.writeArray (Schema.writeFields schema)

/-- The JSON text of a schema, as a string. -/
def Schema.toJsonText (schema : Schema) : String := String.ofList (Schema.write schema)

/-- The JSON text of a field, as a string. -/
def Field.toJsonText (field : Field) : String := String.ofList field.write

/-- The JSON text of a type: its name, as a string of JSON. -/
def FieldType.toJsonText (type : FieldType) : String :=
  String.ofList (Json.writeString type.name)

end ConfigSchema
