import ConfigSchema.Schema.Decoder

/-!
# Reading definitions and settings

A definition is a record with the members `id`, `name`, `type` and `configuration_schema`,
of which only the first may be absent. Once all members are read, its schema is checked
under the default ceiling; a definition that is read has passed that check like one that is
made. The settings are a record with a single, optional member.

The kind of a definition is a name, or an object whose only key is the name and whose value
is null.
-/

namespace ConfigSchema

open Reading

/-! ### Kinds -/

namespace Definition.Kind

/-- The kind with a name, or the fault that there is none. -/
def named (name : String) : Except Fault Definition.Kind :=
  (parse name).mapError fun unknown => .unknownKind unknown.name

/-- Reads a name that is the key of an object, after its opening brace. There has to be one:
an object without members names no kind. -/
def nameAsKey : Reader String := fun s =>
  match s.next? with
  | none => .error .endInObject
  | some ⟨x, r, h⟩ =>
    if x = .char '"' then do
      let name ← Reading.string r
      return name.behind h
    else if x = .char '\x7d' then .error .expectedValue
    else .error .keyNotString

/-- Reads a kind from text. What is neither a string nor an object is not read at all. -/
def ofText : Reader Definition.Kind := fun s =>
  match s.next? with
  | none => .error .endInValue
  | some ⟨x, r, h⟩ =>
    if x = .char '"' then do
      let name ← Reading.string r
      let kind ← named name.value
      return ⟨kind, name.rest, Nat.le_trans name.bound (Nat.le_of_lt h)⟩
    else if x = .char '\x7b' then do
      let name ← nameAsKey r
      let kind ← named name.value
      let sign ← colon name.rest
      let value ← Decoder.unit.ofText sign.rest
      let brace ← expectSymbol '\x7d' .endInObject .expectedValue value.rest
      return ⟨kind, brace.rest, by
        have hname := name.bound
        have hsign := sign.bound
        have hvalue := value.bound
        have hbrace := brace.bound
        omega⟩
    else .error .expectedValue

/-- Reads a kind from a tree. -/
def ofTree : Json.Tree → Except Fault Definition.Kind
  | .string name => named name
  | .object [(name, value)] => do
    let kind ← named name
    Decoder.unit.ofTree value
    return kind
  | .object _ => .error .notSingleMember
  | j => .error (.invalidType (.ofTree j) "string or map")

/-- The decoder of kinds. -/
def decoder : Decoder Definition.Kind := ⟨ofText, ofTree⟩

end Definition.Kind

/-! ### Definitions -/

/-- The members of a definition that have been read. -/
structure Definition.Draft where
  /-- The identifier. -/
  id : Option String := none
  /-- The name. -/
  name : Option String := none
  /-- The kind. -/
  kind : Option Definition.Kind := none
  /-- The schema. -/
  schema : Option Schema := none

namespace Definition

/-- A definition as a record, checked once all its members are read. -/
def shape : RecordShape Definition Definition.Draft where
  name := "struct RawIntegrationDefinition"
  blank := {}
  finish draft := do
    let name ← needed "name" draft.name
    let kind ← needed "type" draft.kind
    let schema ← needed "configuration_schema" draft.schema
    let definition : Definition := ⟨draft.id.getD "", name, kind, schema⟩
    (definition.validate .standard).mapError .rejected
    return definition

/-- The members of a definition, given a decoder for its schema. -/
def members (schema : Decoder Schema) : List (Member Definition.Draft) :=
  [.of "id" true Draft.id (fun x d => { d with id := some x }) Decoder.string,
    .of "name" false Draft.name (fun x d => { d with name := some x }) Decoder.string,
    .of "type" false Draft.kind (fun x d => { d with kind := some x }) Kind.decoder,
    .of "configuration_schema" false Draft.schema (fun x d => { d with schema := some x })
      schema]

/-- Reads a definition of at most the given nesting. -/
def decoder : Nat → Decoder Definition
  | 0 => shape.decoder none
  | n + 1 => shape.decoder (some (members (Schema.decoder n)))

end Definition

/-! ### Settings -/

/-- The members of the settings that have been read. -/
structure EngineConfig.Draft where
  /-- The ceiling for the nesting of schemas. -/
  maxSchemaDepth : Option Int32 := none

namespace EngineConfig

/-- The settings as a record. -/
def shape : RecordShape EngineConfig EngineConfig.Draft where
  name := "struct EngineConfig"
  blank := {}
  finish draft := .ok ⟨draft.maxSchemaDepth.getD Schema.defaultCeiling⟩

/-- The decoder of the settings. -/
def decoder : Decoder EngineConfig :=
  shape.decoder (some
    [.of "max_schema_depth" true Draft.maxSchemaDepth
      (fun x d => { d with maxSchemaDepth := some x }) Decoder.int32])

end EngineConfig

end ConfigSchema
