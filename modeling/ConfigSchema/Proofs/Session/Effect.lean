import ConfigSchema.Proofs.Definition.Checked
import ConfigSchema.Proofs.Integration.Accepted
import ConfigSchema.Session

/-!
# What a command does to a session

Of all commands, three put something into the slot of a definition and four into the slot of
an integration. This file says once what a command can do to these two sets of slots
(`ConfigSchema.Session.Effect`), and that every step does one of these things
(`ConfigSchema.Session.effect_step`); a command that fails does nothing. Statements about
runs are proved from this, and no later proof opens a step.

With the effect of a command goes the definition that an integration was accepted by: the one
that is passed to a command which makes or updates the integration with success
(`ConfigSchema.Session.acceptance`).
-/

namespace ConfigSchema

namespace Command

/-- The command assigns the identifier of the definition that an integration belongs to,
instead of calling one of the operations of the library. -/
def isAssignment : Command → Bool
  | .rebind .. => true
  | _ => false

/-- The command can put something into the slot of a definition or of an integration. The
others look at what is there, or are about configurations. -/
def isLinking : Command → Bool
  | .define .. | .loadDefinition .. | .identifyDefinition .. => true
  | .create .. | .identifyIntegration .. | .rebind .. | .update .. => true
  | _ => false

end Command

namespace Session

/-- What is in a slot is what the slots have under its name. -/
theorem slot_eq_ok_iff {α : Type} {slots : List (String × α)} {name : String} {x : α} :
    slot slots name = .ok x ↔ Keyed.get? name slots = some x := by
  rw [slot]
  cases Keyed.get? name slots <;> simp

/-- The slot of the integration that a command has made or updated, if the reply to it says so,
with the definition that was passed. -/
def acceptance (session : Session) : Command → Reply → Option (String × Definition)
  | .create name _ _ passed _, .integration _ =>
    (Keyed.get? passed session.definitions).map fun definition => (name, definition)
  | .update name passed _, .updated _ =>
    (Keyed.get? passed session.definitions).map fun definition => (name, definition)
  | _, _ => none

/-- **What a command does** to the definitions and the integrations of a session, and the
definition that an integration was accepted by, with the slot of the integration. -/
inductive Effect (session : Session) : Command → Session → Option (String × Definition) → Prop
  /-- Nothing is done to either. -/
  | kept {command : Command} {next : Session}
      (definitions_eq : next.definitions = session.definitions)
      (integrations_eq : next.integrations = session.integrations) :
    Effect session command next none
  /-- A definition is made or read; its schema has passed its check. -/
  | defined {command : Command} {next : Session} {name : String} {definition : Definition}
      (checked : definition.Checked)
      (definitions_eq : next.definitions = Keyed.insert name definition session.definitions)
      (integrations_eq : next.integrations = session.integrations) :
    Effect session command next none
  /-- A definition is given another identifier. -/
  | definitionIdentified {command : Command} {next : Session} {name id : String}
      {definition : Definition}
      (get_eq : Keyed.get? name session.definitions = some definition)
      (definitions_eq : next.definitions =
        Keyed.insert name (definition.withId id) session.definitions)
      (integrations_eq : next.integrations = session.integrations) :
    Effect session command next none
  /-- An integration is made or updated, and the definition that is passed accepts the result. -/
  | accepted {command : Command} {next : Session} {name passed : String}
      {definition : Definition} {integration : Integration}
      (passed_eq : Keyed.get? passed session.definitions = some definition)
      (accepts : definition.Accepts integration)
      (definitions_eq : next.definitions = session.definitions)
      (integrations_eq : next.integrations =
        Keyed.insert name integration session.integrations) :
    Effect session command next (some (name, definition))
  /-- An integration is put back as it was, since its update was refused. -/
  | refused {command : Command} {next : Session} {name : String} {integration : Integration}
      (get_eq : Keyed.get? name session.integrations = some integration)
      (definitions_eq : next.definitions = session.definitions)
      (integrations_eq : next.integrations =
        Keyed.insert name integration session.integrations) :
    Effect session command next none
  /-- An integration is given another identifier. -/
  | integrationIdentified {command : Command} {next : Session} {name id : String}
      {integration : Integration}
      (get_eq : Keyed.get? name session.integrations = some integration)
      (definitions_eq : next.definitions = session.definitions)
      (integrations_eq : next.integrations =
        Keyed.insert name (integration.withId id) session.integrations) :
    Effect session command next none
  /-- An integration belongs to another definition by assignment. -/
  | assigned {name id : String} {next : Session} :
    Effect session (.rebind name id) next none

/-- **A command that does not link anything keeps definitions and integrations** as they
are. -/
theorem kept_of_attempt {session next : Session} {command : Command} {reply : Reply}
    (hcommand : command.isLinking = false) (h : session.attempt command = .ok (next, reply)) :
    next.definitions = session.definitions ∧ next.integrations = session.integrations := by
  cases command with
  | checkDefinition name ceiling =>
    obtain ⟨definition, -, h⟩ := Outcome.bind_eq_ok_iff.mp h
    obtain ⟨-, h⟩ := Outcome.check_bind_eq_ok_iff.mp h
    cases h
    exact ⟨rfl, rfl⟩
  | configure name source reference =>
    obtain ⟨schema, -, h⟩ := Outcome.bind_eq_ok_iff.mp h
    obtain ⟨payload, -, h⟩ := Outcome.bind_eq_ok_iff.mp h
    obtain ⟨configuration, -, h⟩ := Outcome.bind_eq_ok_iff.mp h
    cases h
    exact ⟨rfl, rfl⟩
  | configureJson name text reference =>
    obtain ⟨schema, -, h⟩ := Outcome.bind_eq_ok_iff.mp h
    obtain ⟨j, -, h⟩ := Outcome.bind_eq_ok_iff.mp h
    obtain ⟨configuration, -, h⟩ := Outcome.bind_eq_ok_iff.mp h
    cases h
    exact ⟨rfl, rfl⟩
  | configureDefault name =>
    cases h
    exact ⟨rfl, rfl⟩
  | checkConfiguration name reference =>
    obtain ⟨schema, -, h⟩ := Outcome.bind_eq_ok_iff.mp h
    obtain ⟨configuration, -, h⟩ := Outcome.bind_eq_ok_iff.mp h
    obtain ⟨-, h⟩ := Outcome.check_bind_eq_ok_iff.mp h
    cases h
    exact ⟨rfl, rfl⟩
  | checkIntegration name definition =>
    obtain ⟨definition, -, h⟩ := Outcome.bind_eq_ok_iff.mp h
    obtain ⟨integration, -, h⟩ := Outcome.bind_eq_ok_iff.mp h
    obtain ⟨-, h⟩ := Outcome.check_bind_eq_ok_iff.mp h
    cases h
    exact ⟨rfl, rfl⟩
  -- one thing is looked up, and one thing is done with it
  | get name label | take name | inspect name =>
    obtain ⟨found, -, h⟩ := Outcome.bind_eq_ok_iff.mp h
    cases h
    exact ⟨rfl, rfl⟩
  | sameIntegration a b | sameConfiguration a b | sameDefinition a b =>
    obtain ⟨x, -, h⟩ := Outcome.bind_eq_ok_iff.mp h
    obtain ⟨y, -, h⟩ := Outcome.bind_eq_ok_iff.mp h
    cases h
    exact ⟨rfl, rfl⟩
  | _ => cases hcommand

/-- A command that is carried out has one of the effects. -/
theorem effect_of_attempt {session next : Session} {command : Command} {reply : Reply}
    (h : session.attempt command = .ok (next, reply)) :
    Effect session command next (session.acceptance command reply) := by
  cases command with
  | define name title kind reference ceiling =>
    obtain ⟨schema, -, h⟩ := Outcome.bind_eq_ok_iff.mp h
    obtain ⟨definition, hcreate, h⟩ := Outcome.bind_eq_ok_iff.mp h
    obtain ⟨_, -, hcheck, rfl⟩ :=
      Definition.createWith_eq_ok_iff.mp (Outcome.mapError_eq_ok_iff.mp hcreate)
    cases h
    exact .defined (Definition.checked_of_check hcheck) rfl rfl
  | loadDefinition name document =>
    obtain ⟨definition, hload, h⟩ := Outcome.bind_eq_ok_iff.mp h
    have hcheck := Definition.check_of_load (Outcome.mapError_eq_ok_iff.mp hload)
    cases h
    exact .defined (Definition.checked_of_check hcheck) rfl rfl
  | identifyDefinition name id =>
    obtain ⟨definition, hslot, h⟩ := Outcome.bind_eq_ok_iff.mp h
    cases h
    exact .definitionIdentified (slot_eq_ok_iff.mp hslot) rfl rfl
  | create name title workspace passed configuration =>
    obtain ⟨configuration, -, h⟩ := Outcome.bind_eq_ok_iff.mp h
    obtain ⟨definition, hslot, h⟩ := Outcome.bind_eq_ok_iff.mp h
    obtain ⟨integration, hcreate, h⟩ := Outcome.bind_eq_ok_iff.mp h
    obtain ⟨haccepts, -⟩ :=
      Integration.create_eq_ok_iff.mp (Outcome.mapError_eq_ok_iff.mp hcreate)
    cases h
    rw [acceptance, slot_eq_ok_iff.mp hslot]
    exact .accepted (slot_eq_ok_iff.mp hslot) haccepts rfl rfl
  | identifyIntegration name id =>
    obtain ⟨integration, hslot, h⟩ := Outcome.bind_eq_ok_iff.mp h
    cases h
    exact .integrationIdentified (slot_eq_ok_iff.mp hslot) rfl rfl
  | rebind name id => exact .assigned
  | update name passed configuration =>
    obtain ⟨configuration, -, h⟩ := Outcome.bind_eq_ok_iff.mp h
    obtain ⟨integration, hname, h⟩ := Outcome.bind_eq_ok_iff.mp h
    obtain ⟨definition, hslot, h⟩ := Outcome.bind_eq_ok_iff.mp h
    -- a refused update is carried out too, and its reply says that nothing was replaced
    cases hupdate :
      (Integration.updateConfiguration definition configuration).run integration with
    | ok answer after =>
      obtain ⟨haccepts, -⟩ := Integration.run_updateConfiguration_eq_ok_iff.mp hupdate
      rw [hupdate] at h
      cases h
      rw [acceptance, slot_eq_ok_iff.mp hslot]
      exact .accepted (slot_eq_ok_iff.mp hslot) haccepts rfl rfl
    | error cause after =>
      obtain rfl := Integration.eq_of_run_updateConfiguration hupdate
      rw [hupdate] at h
      cases h
      exact .refused (slot_eq_ok_iff.mp hname) rfl rfl
  | _ =>
    obtain ⟨hdefinitions, hintegrations⟩ := kept_of_attempt rfl h
    exact .kept hdefinitions hintegrations

/-- A command that has failed was no acceptance. -/
theorem acceptance_failed (session : Session) (command : Command) (failure : Failure) :
    session.acceptance command (.failed failure) = none := by
  cases command <;> rfl

/-- **Every step has one of the effects**, whether the command is carried out or fails. -/
theorem effect_step (session : Session) (command : Command) :
    Effect session command (session.step command).1
      (session.acceptance command (session.step command).2) := by
  rw [step]
  cases h : session.attempt command with
  | error failure =>
    rw [acceptance_failed]
    exact .kept rfl rfl
  | ok result => exact effect_of_attempt h

end Session

end ConfigSchema
