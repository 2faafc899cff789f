import ConfigSchema.Integration
import ConfigSchema.Proofs.Outcome

/-!
# What an integration accepts

An integration is made, checked and updated with a definition, and each of the three asks the
same question: does the definition have the identifier that the integration remembers, and
does the configuration meet its schema (`ConfigSchema.Definition.Accepts`)?
-/

namespace ConfigSchema

/-- **A definition accepts an integration**: the identifiers are the same, and the
configuration meets the schema. -/
structure Definition.Accepts (definition : Definition) (integration : Integration) : Prop where
  /-- The integration was made for a definition with this identifier. -/
  id_eq : definition.id = integration.definitionId
  /-- The configuration meets the schema. -/
  check_eq : Payload.check definition.schema integration.configuration.payload = .ok ()

namespace Integration

variable {integration result : Integration} {definition : Definition}
  {configuration : Configuration}

/-- **An integration is valid** exactly for the definitions that accept it. -/
theorem validate_eq_ok_iff :
    integration.validate definition = .ok () ↔ definition.Accepts integration := by
  rw [validate]
  split
  · next hid =>
    rw [Outcome.mapError_eq_ok_iff]
    exact ⟨fun hcheck => ⟨hid, hcheck⟩, fun h => h.check_eq⟩
  · next hid =>
    constructor
    · intro h
      cases h
    · exact fun h => absurd h.id_eq hid

/-- A definition with another identifier is a mismatch, whatever the configuration is. -/
theorem validate_of_id_ne (h : definition.id ≠ integration.definitionId) :
    integration.validate definition =
      .error (.definitionMismatch integration.definitionId definition.id) :=
  if_neg h

/-- **An integration is made** exactly if the definition accepts it; it remembers the
identifier that the definition has. -/
theorem create_eq_ok_iff {name workspaceId : String} :
    create name workspaceId definition configuration = .ok result ↔
      definition.Accepts result ∧
        result = ⟨"", name, workspaceId, definition.id, configuration⟩ := by
  rw [create, Outcome.check_bind_eq_ok_iff, validate_eq_ok_iff]
  constructor
  · rintro ⟨haccepts, h⟩
    cases h
    exact ⟨haccepts, rfl⟩
  · rintro ⟨haccepts, rfl⟩
    exact ⟨haccepts, rfl⟩

/-- **The method replaces the configuration or does nothing**: it is answered by the check of the
integration with the new configuration. -/
theorem run_updateConfiguration :
    (updateConfiguration definition configuration).run integration =
      match { integration with configuration }.validate definition with
      | .ok () => .ok () { integration with configuration }
      | .error cause => .error cause integration := by
  show EStateM.bind (ofExcept ({ integration with configuration }.validate definition)) _
    integration = _
  cases { integration with configuration }.validate definition <;> rfl

/-- **A configuration is replaced** exactly if the definition accepts the integration with
the new one; nothing else of the integration changes. -/
theorem run_updateConfiguration_eq_ok_iff :
    (updateConfiguration definition configuration).run integration = .ok () result ↔
      definition.Accepts result ∧ result = { integration with configuration } := by
  rw [run_updateConfiguration]
  constructor
  · intro h
    split at h
    · next hvalid =>
      cases h
      exact ⟨validate_eq_ok_iff.mp hvalid, rfl⟩
    · cases h
  · rintro ⟨haccepts, rfl⟩
    rw [validate_eq_ok_iff.mpr haccepts]

/-- A method that fails has changed nothing. -/
theorem eq_of_run_updateConfiguration {cause : IntegrationError}
    (h : (updateConfiguration definition configuration).run integration = .error cause result) :
    result = integration := by
  rw [run_updateConfiguration] at h
  split at h <;> cases h
  rfl

end Integration

end ConfigSchema
