import ConfigSchema.Json.Writer
import ConfigSchema.Schema.Check

/-!
# Settings of the engine

The one setting is the ceiling for the nesting depth of schemas.
-/

namespace ConfigSchema

/-- The settings of the engine. -/
structure EngineConfig where
  /-- How deep a schema may be nested. -/
  maxSchemaDepth : Int32 := Schema.defaultCeiling
  deriving DecidableEq, Repr, Inhabited

namespace EngineConfig

/-- The settings where none are given. -/
def standard : EngineConfig := {}

/-- The JSON text of the settings. -/
def toJsonText (engine : EngineConfig) : String :=
  String.ofList (Json.writeObject
    [Json.writeMember "max_schema_depth" (Json.writeInteger engine.maxSchemaDepth.toInt)])

end EngineConfig

end ConfigSchema
