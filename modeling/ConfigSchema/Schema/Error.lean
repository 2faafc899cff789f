/-!
# Errors of a schema

A schema is turned down for one of four causes, or because a field of it has children that
are turned down; then the error of the children is wrapped with the label of the field. The
wrappers, from the outermost in, spell the path to the level that is at fault, and the
innermost error is the cause.
-/

namespace ConfigSchema

/-- What is wrong with a schema. -/
inductive SchemaError where
  /-- A field has a type that is not recognised. -/
  | invalidType (name : String)
  /-- Two fields of one level have one label. -/
  | duplicateField (label : String)
  /-- The schema is nested deeper than allowed. -/
  | depthExceeded
  /-- The label of a field is empty. -/
  | emptyLabel
  /-- The children of a field are at fault. -/
  | invalidField (label : String) (cause : SchemaError)
  deriving DecidableEq, Repr, Inhabited

namespace SchemaError

/-- The text of an error: one clause for every wrapper, then the cause. -/
def message : SchemaError → String
  | .invalidType name => "Invalid type " ++ name
  | .duplicateField label => "Field name " ++ label ++ " is duplicated"
  | .depthExceeded => "Max depth exceeded"
  | .emptyLabel => "Field label must not be empty"
  | .invalidField label cause => "Invalid field " ++ label ++ ": " ++ cause.message

/-- The innermost error. -/
def rootCause : SchemaError → SchemaError
  | .invalidField _ cause => cause.rootCause
  | e => e

/-- The error that an error wraps. -/
def source : SchemaError → Option SchemaError
  | .invalidField _ cause => some cause
  | _ => none

/-- The error and the errors it wraps, the outermost first. -/
def chain : SchemaError → List SchemaError
  | .invalidField label cause => .invalidField label cause :: cause.chain
  | e => [e]

/-- The labels of the wrappers, the outermost first. -/
def labels : SchemaError → List String
  | .invalidField label cause => label :: cause.labels
  | _ => []

/-- The path to the level at fault. -/
def fieldPath (e : SchemaError) : String := String.intercalate "." e.labels

/-- The number of an error that is no wrapper; wrappers have none of their own. -/
def number : SchemaError → Nat
  | .invalidType _ => 1
  | .duplicateField _ => 2
  | .depthExceeded => 3
  | .emptyLabel => 4
  | .invalidField .. => 0

/-- The code of an error is that of its cause: a family name and a number of four
digits. -/
def code (e : SchemaError) : String := "SCHEMA_000" ++ toString e.rootCause.number

end SchemaError

end ConfigSchema
