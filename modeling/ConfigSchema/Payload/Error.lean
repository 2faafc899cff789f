import ConfigSchema.Schema.Basic
import ConfigSchema.Value.Basic

/-!
# Errors of a payload

A payload is turned down at one place. The error says what is wrong there, and is wrapped
on the way out: with the label and the index for an element of an array, with the label for
the value of an `object` field. An element of an array of objects thus gets two wrappers
with one label, which is why the path (`ConfigSchema.ValidationError.fieldPath`) leaves out
the label of whatever follows an index.
-/

namespace ConfigSchema

/-- What is wrong with a payload. -/
inductive ValidationError where
  /-- A required field is absent. -/
  | missingRequiredField (label : String)
  /-- A value has another kind than its field declares. -/
  | typeMismatch (label : String) (expected : FieldType) (actual : Value.Kind)
  /-- A required array has no elements. -/
  | emptyRequiredArray (label : String)
  /-- An element of an array is at fault. -/
  | invalidArrayElement (label : String) (index : Nat) (cause : ValidationError)
  /-- A field of a map is at fault. -/
  | invalidObject (label : String) (cause : ValidationError)
  /-- The configuration as a whole is no map. -/
  | notAnObject (actual : Value.Kind)
  /-- The field declares a type that is not recognised. -/
  | unsupportedFieldType (label : String) (typeName : String)
  deriving DecidableEq, Repr, Inhabited

namespace ValidationError

/-- The text of an error: one clause for every wrapper, then the cause. -/
def message : ValidationError → String
  | .missingRequiredField label => "Field " ++ label ++ " is required"
  | .typeMismatch label expected actual =>
    "Field " ++ label ++ " is invalid: expected " ++ expected.name ++ ", got " ++ actual.name
  | .emptyRequiredArray label => "Array " ++ label ++ " is required"
  | .invalidArrayElement label index cause =>
    "Array " ++ label ++ " is invalid at index " ++ toString index ++ ": " ++ cause.message
  | .invalidObject label cause => "Field " ++ label ++ " is invalid: " ++ cause.message
  | .notAnObject actual => "Configuration must be an object, got " ++ actual.name
  | .unsupportedFieldType label typeName =>
    "Field " ++ label ++ " declares unsupported type " ++ typeName

/-- The innermost error. -/
def rootCause : ValidationError → ValidationError
  | .invalidArrayElement _ _ cause => cause.rootCause
  | .invalidObject _ cause => cause.rootCause
  | e => e

/-- The error that an error wraps. -/
def source : ValidationError → Option ValidationError
  | .invalidArrayElement _ _ cause => some cause
  | .invalidObject _ cause => some cause
  | _ => none

/-- The error and the errors it wraps, the outermost first. -/
def chain : ValidationError → List ValidationError
  | .invalidArrayElement label index cause =>
    .invalidArrayElement label index cause :: cause.chain
  | .invalidObject label cause => .invalidObject label cause :: cause.chain
  | e => [e]

/-- The label that an error itself carries. -/
def ownLabel : ValidationError → String
  | .missingRequiredField label => label
  | .typeMismatch label _ _ => label
  | .emptyRequiredArray label => label
  | .invalidArrayElement label _ _ => label
  | .invalidObject label _ => label
  | .notAnObject _ => ""
  | .unsupportedFieldType label _ => label

/-- The label of the field at fault, which the innermost error carries; a configuration
that is no map has no such field. -/
def label (e : ValidationError) : String := e.rootCause.ownLabel

/-- A path with one more label, after a dot unless the path is empty. -/
def extendPath (path label : String) : String :=
  if path = "" then label else path ++ "." ++ label

/-- The path to the value at fault, continued from a path so far. Right after an index the
next error speaks of the element itself, and its label is left out; another index always
brings its own label. -/
def continuePath (path : String) (afterIndex : Bool) : ValidationError → String
  | .invalidArrayElement label index cause =>
    continuePath (extendPath path label ++ "[" ++ toString index ++ "]") true cause
  | .invalidObject label cause =>
    continuePath (if afterIndex then path else extendPath path label) false cause
  | cause => if afterIndex then path else extendPath path cause.ownLabel

/-- **The path to the value at fault**: labels joined by dots, each with its index where
there is one. -/
def fieldPath (e : ValidationError) : String := continuePath "" false e

/-- The number of an error that is no wrapper; wrappers have none of their own. -/
def number : ValidationError → Nat
  | .missingRequiredField _ => 1
  | .typeMismatch .. => 2
  | .emptyRequiredArray _ => 3
  | .unsupportedFieldType .. => 4
  | .notAnObject _ => 5
  | .invalidArrayElement .. => 0
  | .invalidObject .. => 0

/-- The code of an error is that of its cause: a family name and a number of four
digits. -/
def code (e : ValidationError) : String := "VALIDATION_000" ++ toString e.rootCause.number

end ValidationError

end ConfigSchema
