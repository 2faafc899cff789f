import ConfigSchema.Payload.Error

/-!
# Checking a payload

A payload is checked against a schema field by field, in the order of declaration, and the
first fault is the answer. What the schema does not declare is not looked at.

* An absent field is at fault if it is required.
* The value of an array field has to be a list of arbitrary values, with elements if the
  field is required; each element is judged like the value of a field that is no array, and
  a fault is wrapped with its index.
* Any other value has to be of the declared kind. For an `object` field the map is checked
  against the children, and a fault there is wrapped with the label.

The whole is `ConfigSchema.Payload.check`. The schema need not have been checked before: a
field of unknown type accepts no value. The recursion is on the schema, so the depth of the
payload does not matter, and what lies below a field that is no `object` is never visited.
-/

namespace ConfigSchema

namespace Payload

/-- Checks one value, or one element of an array, against the declared type of a field.
`nested` checks a map against the children of the field. -/
def checkValue (label : String) (type : FieldType)
    (nested : Payload → Except ValidationError Unit) (v : Value) :
    Except ValidationError Unit :=
  match type, v with
  | .string, .string _ => .ok ()
  | .int, .integer _ => .ok ()
  | .float, .float _ => .ok ()
  | .decimal, .float _ => .ok ()
  | .boolean, .boolean _ => .ok ()
  | .object, .map entries => (nested entries).mapError (.invalidObject label)
  | .unknown name, _ => .error (.unsupportedFieldType label name)
  | type, v => .error (.typeMismatch label type v.kind)

/-- Checks the elements of an array in order, from an index on. -/
def checkElements (label : String) (element : Value → Except ValidationError Unit) :
    Nat → List Value → Except ValidationError Unit
  | _, [] => .ok ()
  | index, v :: rest => do
    (element v).mapError (.invalidArrayElement label index)
    checkElements label element (index + 1) rest

/-- Checks the value of an array field. -/
def checkArray (label : String) (type : FieldType) (required : Bool)
    (element : Value → Except ValidationError Unit) (v : Value) :
    Except ValidationError Unit :=
  match v.items? with
  | none => .error (.typeMismatch label type v.kind)
  | some [] => if required then .error (.emptyRequiredArray label) else .ok ()
  | some (first :: rest) => checkElements label element 0 (first :: rest)

mutual

/-- Checks what a payload holds for one field. -/
def checkField : Field → Payload → Except ValidationError Unit
  | ⟨label, type, required, isArray, children⟩, payload =>
    match Keyed.get? label payload with
    | none => if required then .error (.missingRequiredField label) else .ok ()
    | some v =>
      if isArray then
        checkArray label type required (checkValue label type (checkFields children)) v
      else checkValue label type (checkFields children) v

/-- Checks a payload against the fields of a level, in order. -/
def checkFields : List Field → Payload → Except ValidationError Unit
  | [], _ => .ok ()
  | f :: fs, payload => do
    checkField f payload
    checkFields fs payload

end

/-- **Checks a payload** against a schema; the answer is the first fault. -/
def check (schema : Schema) (payload : Payload) : Except ValidationError Unit :=
  checkFields schema payload

end Payload

end ConfigSchema
