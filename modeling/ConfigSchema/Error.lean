import ConfigSchema.Integration
import ConfigSchema.Loading

/-!
# All errors together

An error of any part of the library, for those who call several of them. Its text says
first which part it comes from.
-/

namespace ConfigSchema

/-- An error of any part of the library. -/
inductive Error where
  /-- An error of a schema. -/
  | schema (cause : SchemaError)
  /-- An error of a payload. -/
  | validation (cause : ValidationError)
  /-- An error of a definition. -/
  | definition (cause : DefinitionError)
  /-- An error of an integration. -/
  | integration (cause : IntegrationError)
  /-- An error of loading a document. -/
  | load (cause : LoadError)
  deriving DecidableEq, Repr

/-- The text of an error. -/
def Error.message : Error → String
  | .schema cause => "Schema error: " ++ cause.message
  | .validation cause => "Validation error: " ++ cause.message
  | .definition cause => "Definition error: " ++ cause.message
  | .integration cause => "Integration error: " ++ cause.message
  | .load cause => "Internal error: " ++ cause.message

end ConfigSchema
