import ConfigSchema.Schema.Basic
import ConfigSchema.Schema.Error

/-!
# Checking a schema

A schema is well formed under a ceiling if it is nested no deeper than the ceiling allows,
and at every level that is reached through `object` fields the labels are not empty and
pairwise distinct, and the types are recognised.

`ConfigSchema.Schema.check` finds the first fault. The ceiling counts down, one for each
level, and a level is refused as a whole when the count is below zero, before any of its
fields is looked at. Fields are judged in order; of one field first its label, then the
label against those before it, then its type, then its children.
-/

namespace ConfigSchema

namespace Schema

/-- Checks a level if the remaining depth is not below zero. -/
def withinDepth (remaining : Int32) (level : Int32 → Except SchemaError Unit) :
    Except SchemaError Unit :=
  if remaining < 0 then .error .depthExceeded else level remaining

mutual

/-- Checks the type of a field, and the children of an `object` field one level down. -/
def checkField : Field → Int32 → Except SchemaError Unit
  | ⟨label, type, _, _, children⟩, remaining =>
    match type with
    | .unknown name => .error (.invalidType name)
    | .object =>
      (withinDepth (remaining - 1) (checkFields children [])).mapError (.invalidField label)
    | _ => .ok ()

/-- Checks the fields of a level in order, given the labels of those before them. -/
def checkFields : List Field → List String → Int32 → Except SchemaError Unit
  | [], _, _ => .ok ()
  | f :: fs, seen, remaining =>
    if f.label = "" then .error .emptyLabel
    else if f.label ∈ seen then .error (.duplicateField f.label)
    else do
      checkField f remaining
      checkFields fs (f.label :: seen) remaining

end

/-- **Checks a schema** under a ceiling; the answer is the first fault. -/
def check (schema : Schema) (ceiling : Int32) : Except SchemaError Unit :=
  withinDepth ceiling (checkFields schema [])

/-- The ceiling that holds where none is given. -/
def defaultCeiling : Int32 := 3

end Schema

end ConfigSchema
