import ConfigSchema.Definition.Basic
import ConfigSchema.Payload.Check
import ConfigSchema.Value.Decode
import ConfigSchema.Value.Equality

/-!
# Configurations and integrations

A configuration is a payload that has been checked against a schema. An integration is a
concrete instance of a definition, with a configuration. It remembers the identifier of the
definition it was made for, and it is checked against no other: a definition with another
identifier is a mismatch before the configuration is looked at.

The configuration of an integration is replaced in place. The integration is therefore part of
either result of the method, and no caller has to put it back when the method fails.
-/

namespace ConfigSchema

/-- A checked payload. The empty one is the default, and is checked only when it is used. -/
structure Configuration where
  /-- The entries, sorted by label. -/
  payload : Payload := []
  deriving Repr, Inhabited

namespace Configuration

/-- Checks a configuration against a schema. -/
def validate (configuration : Configuration) (schema : Schema) :
    Except ValidationError Unit :=
  Payload.check schema configuration.payload

/-- **Makes a configuration** of a payload that meets a schema. -/
def create (payload : Payload) (schema : Schema) : Except ValidationError Configuration := do
  Payload.check schema payload
  return ⟨payload⟩

/-- Makes a configuration of a tree; only an object can be one. -/
def ofJson (j : Json.Tree) (schema : Schema) : Except ValidationError Configuration :=
  match Value.ofJson j with
  | .map entries => create entries schema
  | v => .error (.notAnObject v.kind)

/-- The value at a label. -/
def get? (configuration : Configuration) (label : String) : Option Value :=
  Keyed.get? label configuration.payload

/-- Equality of configurations, numeric at the leaves. -/
def equal (a b : Configuration) : Bool := Payload.equal a.payload b.payload

end Configuration

/-- Why an integration is not made, not valid or not updated. -/
inductive IntegrationError where
  /-- The configuration does not meet the schema of the definition. -/
  | invalidConfiguration (cause : ValidationError)
  /-- The definition is not the one the integration was made for. -/
  | definitionMismatch (expected found : String)
  deriving DecidableEq, Repr, Inhabited

namespace IntegrationError

/-- The text of an error. -/
def message : IntegrationError → String
  | .invalidConfiguration cause => "Invalid configuration: " ++ cause.message
  | .definitionMismatch expected found =>
    "Configuration belongs to definition " ++ expected ++ ", not " ++ found

/-- The error of the configuration behind it, if there is one. -/
def source? : IntegrationError → Option ValidationError
  | .invalidConfiguration cause => some cause
  | .definitionMismatch .. => none

end IntegrationError

/-- A concrete instance of a definition. -/
structure Integration where
  /-- The identifier, empty until it is assigned. -/
  id : String
  /-- The name for people. -/
  name : String
  /-- The identifier of the workspace it belongs to. -/
  workspaceId : String
  /-- The identifier of the definition it was made for. -/
  definitionId : String
  /-- The configuration. -/
  configuration : Configuration
  deriving Repr, Inhabited

namespace Integration

/-- Checks an integration against a definition: first the identifiers, then the
configuration. -/
def validate (integration : Integration) (definition : Definition) :
    Except IntegrationError Unit :=
  if definition.id = integration.definitionId then
    (integration.configuration.validate definition.schema).mapError .invalidConfiguration
  else .error (.definitionMismatch integration.definitionId definition.id)

/-- **Makes an integration** of a definition, under the identifier that the definition has
now. -/
def create (name workspaceId : String) (definition : Definition)
    (configuration : Configuration) : Except IntegrationError Integration := do
  let integration : Integration := ⟨"", name, workspaceId, definition.id, configuration⟩
  integration.validate definition
  return integration

/-- The integration with an identifier. -/
def withId (integration : Integration) (id : String) : Integration := { integration with id }

/-- **Replaces the configuration** of the integration that the method is called on, if the
integration would still be valid with it. A failure leaves whatever stands in the integration by
then. -/
def updateConfiguration (definition : Definition) (configuration : Configuration) :
    EStateM IntegrationError Integration Unit := do
  let integration ← get
  let candidate := { integration with configuration }
  ofExcept (candidate.validate definition)
  set { integration with configuration := candidate.configuration }

/-- Equality of integrations, numeric in the configuration. -/
def equal (a b : Integration) : Bool :=
  a.id == b.id && a.name == b.name && a.workspaceId == b.workspaceId &&
    a.definitionId == b.definitionId && a.configuration.equal b.configuration

end Integration

end ConfigSchema
