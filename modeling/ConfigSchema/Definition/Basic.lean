import ConfigSchema.Engine
import ConfigSchema.Schema.Writer

/-!
# Integration definitions

A definition says what configuration an integration accepts. It is made from the name of a
kind and a schema, both of which are checked on the way, the kind first; a definition whose
schema is not well formed under the ceiling is never made. The identifier starts empty and
is assigned by whoever stores the definition.
-/

namespace ConfigSchema

/-- The direction in which an integration moves data. -/
inductive Definition.Kind where
  /-- Data comes from there. -/
  | source
  /-- Data goes there. -/
  | destination
  deriving DecidableEq, Repr, Inhabited

/-- A name that is not the name of a kind. -/
structure Definition.UnknownKind where
  /-- The name. -/
  name : String
  deriving DecidableEq, Repr

/-- The text of the error; it does not repeat the name. -/
def Definition.UnknownKind.message (_ : Definition.UnknownKind) : String :=
  "Matching variant not found"

namespace Definition.Kind

/-- The name of a kind. -/
def name : Definition.Kind → String
  | .source => "source"
  | .destination => "destination"

/-- The kind with a name. -/
def parse (name : String) : Except UnknownKind Definition.Kind :=
  if name = "source" then .ok .source
  else if name = "destination" then .ok .destination
  else .error ⟨name⟩

/-- A kind is parsed from its own name and from no other. -/
theorem parse_eq_ok_iff {name : String} {kind : Definition.Kind} :
    parse name = .ok kind ↔ name = kind.name := by
  unfold parse
  cases kind <;> (repeat' split) <;> simp_all [Definition.Kind.name]

/-- The JSON text of a kind. -/
def toJsonText (kind : Definition.Kind) : String := String.ofList (Json.writeString kind.name)

end Definition.Kind

/-- Why a definition is not made, or does not hold any more. -/
inductive DefinitionError where
  /-- There is no kind of this name. -/
  | invalidKind (name : String)
  /-- The schema is not well formed under the ceiling. -/
  | invalidSchema (cause : SchemaError)
  deriving DecidableEq, Repr, Inhabited

namespace DefinitionError

/-- The text of an error. -/
def message : DefinitionError → String
  | .invalidKind name =>
    "Invalid type " ++ name ++ ". Valid types are \"source\" and \"destination\""
  | .invalidSchema cause => "Invalid configuration schema: " ++ cause.message

/-- The error of the schema behind it, if there is one. -/
def source? : DefinitionError → Option SchemaError
  | .invalidKind _ => none
  | .invalidSchema cause => some cause

end DefinitionError

/-- What configuration an integration accepts. -/
structure Definition where
  /-- The identifier, empty until it is assigned. -/
  id : String
  /-- The name for people. -/
  name : String
  /-- The direction. -/
  kind : Definition.Kind
  /-- The schema that configurations have to meet. -/
  schema : Schema
  deriving DecidableEq, Repr, Inhabited

namespace Definition

/-- Checks the schema of a definition under the ceiling of the settings. -/
def validate (definition : Definition) (engine : EngineConfig) :
    Except DefinitionError Unit :=
  (Schema.check definition.schema engine.maxSchemaDepth).mapError .invalidSchema

/-- **Makes a definition** under the ceiling of the settings. -/
def createWith (name kindName : String) (schema : Schema) (engine : EngineConfig) :
    Except DefinitionError Definition :=
  match Kind.parse kindName with
  | .error unknown => .error (.invalidKind unknown.name)
  | .ok kind => do
    let definition : Definition := ⟨"", name, kind, schema⟩
    definition.validate engine
    return definition

/-- Makes a definition under the default ceiling. -/
def create (name kindName : String) (schema : Schema) : Except DefinitionError Definition :=
  createWith name kindName schema .standard

/-- The definition with an identifier. -/
def withId (definition : Definition) (id : String) : Definition := { definition with id }

/-- The JSON text of a definition. -/
def toJsonText (definition : Definition) : String :=
  String.ofList (Json.writeObject
    [Json.writeMember "id" (Json.writeString definition.id),
      Json.writeMember "name" (Json.writeString definition.name),
      Json.writeMember "type" (Json.writeString definition.kind.name),
      Json.writeMember "configuration_schema" definition.schema.write])

end Definition

end ConfigSchema
