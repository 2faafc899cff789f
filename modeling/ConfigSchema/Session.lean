import ConfigSchema.Error

/-!
# Sessions

A session keeps definitions, configurations and integrations in named slots, one set of
slots for each of the three, and runs commands on them one after the other. Every command
has a reply, and a command that fails leaves the session as it was; the commands after it
are run all the same.

A command may bring a schema and a payload of its own, made or as text that is read when
the command runs, or it may name a definition whose schema is meant. A schema that a command
brings is not checked, unless a definition is made of it.
-/

namespace ConfigSchema

open Reading

/-! ### What commands bring along -/

/-- A schema, made or as text. -/
inductive SchemaSource where
  /-- A schema, as it is. -/
  | fields (schema : Schema)
  /-- Text, read in one pass. -/
  | text (text : String)

/-- The schema of a source. -/
def SchemaSource.resolve : SchemaSource → Except Fault Schema
  | .fields schema => .ok schema
  | .text content => Schema.document.read (.ofString content)

/-- A payload, made or as text. -/
inductive PayloadSource where
  /-- A payload, as it is. -/
  | entries (payload : Payload)
  /-- Text, read by way of a tree. -/
  | text (text : String)

/-- Why a command fails. -/
inductive Failure where
  /-- There is nothing in a slot. -/
  | noSlot (name : String)
  /-- Text that the command brings is at fault. -/
  | unreadable (fault : Fault)
  /-- Text that should be a payload is not an object. -/
  | noPayload
  /-- A definition is not made or not valid. -/
  | definition (cause : DefinitionError)
  /-- A configuration is not made or not valid. -/
  | validation (cause : ValidationError)
  /-- An integration is not made or not valid. -/
  | integration (cause : IntegrationError)
  /-- A document is not loaded. -/
  | load (cause : LoadError)
  deriving DecidableEq, Repr

/-- The payload of a source. -/
def PayloadSource.resolve : PayloadSource → Except Failure Payload
  | .entries payload => .ok payload
  | .text content => do
    let j ← (readTree (.ofString content)).mapError .unreadable
    match Payload.ofJson? j with
    | some payload => return payload
    | none => throw .noPayload

/-- The schema that a command means. -/
inductive SchemaReference where
  /-- That of the definition in a slot. -/
  | ofDefinition (slot : String)
  /-- One that the command brings. -/
  | given (source : SchemaSource)

/-! ### Commands and replies -/

/-- A command. -/
inductive Command where
  /-- Makes a definition, under a ceiling if one is given. -/
  | define (slot name kind : String) (schema : SchemaReference) (ceiling : Option Int32)
  /-- Loads a definition. -/
  | loadDefinition (slot : String) (document : Document)
  /-- Gives a definition its identifier. -/
  | identifyDefinition (slot id : String)
  /-- Checks a definition, under a ceiling if one is given. -/
  | checkDefinition (slot : String) (ceiling : Option Int32)
  /-- Makes a configuration of a payload. -/
  | configure (slot : String) (payload : PayloadSource) (schema : SchemaReference)
  /-- Makes a configuration of the tree of a text. -/
  | configureJson (slot text : String) (schema : SchemaReference)
  /-- Makes the empty configuration. -/
  | configureDefault (slot : String)
  /-- Checks a configuration. -/
  | checkConfiguration (slot : String) (schema : SchemaReference)
  /-- Looks up a label of a configuration. -/
  | get (slot label : String)
  /-- Takes a configuration out of its slot. -/
  | take (slot : String)
  /-- Makes an integration. -/
  | create (slot name workspace definition configuration : String)
  /-- Gives an integration its identifier. -/
  | identifyIntegration (slot id : String)
  /-- Makes an integration belong to another definition, without a check. -/
  | rebind (slot definitionId : String)
  /-- Checks an integration. -/
  | checkIntegration (slot definition : String)
  /-- Replaces the configuration of an integration. -/
  | update (slot definition configuration : String)
  /-- Looks at an integration. -/
  | inspect (slot : String)
  /-- Compares two integrations. -/
  | sameIntegration (a b : String)
  /-- Compares two configurations. -/
  | sameConfiguration (a b : String)
  /-- Compares two definitions. -/
  | sameDefinition (a b : String)

/-- The reply to a command. -/
inductive Reply where
  /-- A check was passed. -/
  | valid
  /-- A definition was made or changed. -/
  | definition (definition : Definition)
  /-- A configuration was made. -/
  | configuration (configuration : Configuration)
  /-- What a configuration has at a label. -/
  | found (value : Option Value)
  /-- The payload of a configuration that was taken out. -/
  | payload (payload : Payload)
  /-- An integration was made, changed or looked at. -/
  | integration (integration : Integration)
  /-- A configuration was replaced in an integration. -/
  | updated (after : Integration)
  /-- A configuration was not replaced. -/
  | notUpdated (cause : IntegrationError) (after : Integration)
  /-- Whether two things are equal. -/
  | equal (answer : Bool)
  /-- The command failed. -/
  | failed (failure : Failure)

/-- The slots of a session. -/
structure Session where
  /-- The definitions. -/
  definitions : List (String × Definition) := []
  /-- The configurations. -/
  configurations : List (String × Configuration) := []
  /-- The integrations. -/
  integrations : List (String × Integration) := []
  deriving Inhabited

namespace Session

/-! ### Slots -/

/-- What is in a slot. -/
def slot {α : Type} (slots : List (String × α)) (name : String) : Except Failure α :=
  match Keyed.get? name slots with
  | some x => .ok x
  | none => .error (.noSlot name)

/-- The session with a definition put into a slot. -/
def putDefinition (session : Session) (name : String) (x : Definition) : Session :=
  { session with definitions := Keyed.insert name x session.definitions }

/-- The session with a configuration put into a slot. -/
def putConfiguration (session : Session) (name : String) (x : Configuration) : Session :=
  { session with configurations := Keyed.insert name x session.configurations }

/-- The session with an integration put into a slot. -/
def putIntegration (session : Session) (name : String) (x : Integration) : Session :=
  { session with integrations := Keyed.insert name x session.integrations }

/-- The schema that a reference means. -/
def schema (session : Session) : SchemaReference → Except Failure Schema
  | .ofDefinition name => return (← slot session.definitions name).schema
  | .given source => source.resolve.mapError .unreadable

/-- The settings with a ceiling, or the default ones. -/
def engine : Option Int32 → EngineConfig
  | none => .standard
  | some ceiling => ⟨ceiling⟩

/-! ### Running commands -/

/-- Runs a command. A failure is about the first thing that is missing or at fault, in this
order: the schema that is meant, the payload that is brought, a configuration in a slot, an
integration, a definition; only the check of an integration looks for the definition before
the integration. -/
def attempt (session : Session) : Command → Except Failure (Session × Reply)
  | .define name title kind reference ceiling => do
    let schema ← session.schema reference
    let definition ←
      (Definition.createWith title kind schema (engine ceiling)).mapError .definition
    return (session.putDefinition name definition, .definition definition)
  | .loadDefinition name document => do
    let definition ← (Definition.document.load document).mapError .load
    return (session.putDefinition name definition, .definition definition)
  | .identifyDefinition name id => do
    let definition := (← slot session.definitions name).withId id
    return (session.putDefinition name definition, .definition definition)
  | .checkDefinition name ceiling => do
    let definition ← slot session.definitions name
    (definition.validate (engine ceiling)).mapError .definition
    return (session, .valid)
  | .configure name source reference => do
    let schema ← session.schema reference
    let payload ← source.resolve
    let configuration ← (Configuration.create payload schema).mapError .validation
    return (session.putConfiguration name configuration, .configuration configuration)
  | .configureJson name text reference => do
    let schema ← session.schema reference
    let j ← (readTree (.ofString text)).mapError .unreadable
    let configuration ← (Configuration.ofJson j schema).mapError .validation
    return (session.putConfiguration name configuration, .configuration configuration)
  | .configureDefault name =>
    return (session.putConfiguration name {}, .configuration {})
  | .checkConfiguration name reference => do
    let schema ← session.schema reference
    let configuration ← slot session.configurations name
    (configuration.validate schema).mapError .validation
    return (session, .valid)
  | .get name label => do
    let configuration ← slot session.configurations name
    return (session, .found (configuration.get? label))
  | .take name => do
    let configuration ← slot session.configurations name
    return ({ session with configurations := Keyed.erase name session.configurations },
      .payload configuration.payload)
  | .create name title workspace definition configuration => do
    let configuration ← slot session.configurations configuration
    let definition ← slot session.definitions definition
    let integration ←
      (Integration.create title workspace definition configuration).mapError .integration
    return (session.putIntegration name integration, .integration integration)
  | .identifyIntegration name id => do
    let integration := (← slot session.integrations name).withId id
    return (session.putIntegration name integration, .integration integration)
  | .rebind name definitionId => do
    let integration := { ← slot session.integrations name with definitionId }
    return (session.putIntegration name integration, .integration integration)
  | .checkIntegration name definition => do
    let definition ← slot session.definitions definition
    let integration ← slot session.integrations name
    (integration.validate definition).mapError .integration
    return (session, .valid)
  | .update name definition configuration => do
    let configuration ← slot session.configurations configuration
    let integration ← slot session.integrations name
    let definition ← slot session.definitions definition
    match (Integration.updateConfiguration definition configuration).run integration with
    | .ok () after => return (session.putIntegration name after, .updated after)
    | .error cause after =>
      return (session.putIntegration name after, .notUpdated cause after)
  | .inspect name => do
    let integration ← slot session.integrations name
    return (session, .integration integration)
  | .sameIntegration a b => do
    let a ← slot session.integrations a
    let b ← slot session.integrations b
    return (session, .equal (a.equal b))
  | .sameConfiguration a b => do
    let a ← slot session.configurations a
    let b ← slot session.configurations b
    return (session, .equal (a.equal b))
  | .sameDefinition a b => do
    let a ← slot session.definitions a
    let b ← slot session.definitions b
    return (session, .equal (a = b))

/-- **Runs one command.** -/
def step (session : Session) (command : Command) : Session × Reply :=
  match session.attempt command with
  | .ok result => result
  | .error failure => (session, .failed failure)

/-- Runs commands one after the other, and returns the replies in order. -/
def run (session : Session) : List Command → Session × List Reply
  | [] => (session, [])
  | command :: rest =>
    let (next, reply) := session.step command
    let (last, replies) := run next rest
    (last, reply :: replies)

end Session

end ConfigSchema
