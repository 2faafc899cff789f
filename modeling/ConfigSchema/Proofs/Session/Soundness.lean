import ConfigSchema.Proofs.Keyed
import ConfigSchema.Proofs.Session.Effect
import Mathlib.Data.List.Infix

/-!
# Integrations stay valid along every run

Configurations carry no record of the schema that they were checked against, definitions
change their identifiers, and slots are filled again. What survives any order of commands is
a link between an integration and a definition, kept outside the session: the definition
that was passed when the integration was last made or updated with success accepts it
(`ConfigSchema.Session.Sound`). Every step keeps the link
(`ConfigSchema.Session.Sound.step`), hence every run does.

Whoever assigns identifiers so that one identifier stands for one schema can therefore check
an integration against any definition with its identifier: the check is passed, whatever was
attempted in between (`ConfigSchema.Session.run_keeps_integrations_valid`).
-/

namespace ConfigSchema

namespace Session

/-! ### Runs -/

/-- The integrations that the commands of a run make or update, in order, each by its slot and
with the definition that was passed. -/
def acceptances (session : Session) : List Command → List (String × Definition)
  | [] => []
  | command :: rest =>
    (session.acceptance command (session.step command).2).toList ++
      acceptances (session.step command).1 rest

/-- The session after some commands, run from the empty one. -/
def after (commands : List Command) : Session := (run {} commands).1

/-- **The definition that was passed last** to a command that made or updated the integration
in a slot. -/
def lastAcceptance? (commands : List Command) (name : String) : Option Definition :=
  Keyed.get? name (Keyed.ofList (acceptances {} commands))

/-- A definition is obtained in a run if it stands in a slot after some of the commands. -/
def Obtains (commands : List Command) (definition : Definition) : Prop :=
  ∃ past name, past <+: commands ∧
    Keyed.get? name (after past).definitions = some definition

/-- An integration is held in a slot in a run, after some of the commands. -/
def Holds (commands past : List Command) (name : String) (integration : Integration) : Prop :=
  past <+: commands ∧ Keyed.get? name (after past).integrations = some integration

/-- All definitions with an identifier that are obtained in a run have one schema, which is
what a store of definitions that assigns the identifiers sees to. -/
def OneSchemaFor (commands : List Command) (id : String) : Prop :=
  ∀ definition definition' : Definition, Obtains commands definition →
    Obtains commands definition' → definition.id = id → definition'.id = id →
      definition.schema = definition'.schema

/-! ### The invariant -/

/-- **The invariant of a session**, given the definitions that integrations were last accepted
by: all definitions have been checked, and each integration is accepted by the definition
that is noted for its slot. -/
structure Sound (noted : List (String × Definition)) (session : Session) : Prop where
  /-- The schema of every definition has been checked. -/
  checked : ∀ name definition,
    Keyed.get? name session.definitions = some definition → definition.Checked
  /-- Every integration is accepted by the definition that is noted for it. -/
  accepts : ∀ name integration, Keyed.get? name session.integrations = some integration →
    ∃ definition, Keyed.get? name noted = some definition ∧ definition.Accepts integration

/-- What is noted once a command has been run. -/
def note (noted : List (String × Definition)) :
    Option (String × Definition) → List (String × Definition)
  | none => noted
  | some (name, definition) => Keyed.insert name definition noted

/-- The empty session is sound. -/
theorem Sound.empty : Sound [] {} where
  checked _ _ h := by cases h
  accepts _ _ h := by cases h

/-- **An effect keeps the invariant**, unless it is an assignment. -/
theorem Sound.effect {noted : List (String × Definition)} {session next : Session}
    {command : Command} {accepted : Option (String × Definition)} (h : Sound noted session)
    (hcommand : command.isAssignment = false)
    (heffect : Effect session command next accepted) : Sound (note noted accepted) next := by
  cases heffect with
  | kept hdefinitions hintegrations =>
    exact ⟨hdefinitions ▸ h.checked, hintegrations ▸ h.accepts⟩
  | defined hchecked hdefinitions hintegrations =>
    exact ⟨hdefinitions ▸ Keyed.forall_get?_insert h.checked hchecked, hintegrations ▸ h.accepts⟩
  | definitionIdentified hget hdefinitions hintegrations =>
    have hchecked := (h.checked _ _ hget).withId
    exact ⟨hdefinitions ▸ Keyed.forall_get?_insert h.checked (hchecked _),
      hintegrations ▸ h.accepts⟩
  | @accepted _ _ name _ definition integration hpassed haccepts hdefinitions hintegrations =>
    refine ⟨hdefinitions ▸ h.checked, ?_⟩
    rw [hintegrations]
    intro other integration' hget
    rw [Keyed.get?_insert] at hget
    simp only [note, Keyed.get?_insert]
    by_cases hname : name = other
    · rw [if_pos hname] at hget ⊢
      exact ⟨definition, rfl, Option.some.inj hget ▸ haccepts⟩
    · rw [if_neg hname] at hget ⊢
      exact h.accepts other integration' hget
  | refused hget hdefinitions hintegrations =>
    exact ⟨hdefinitions ▸ h.checked,
      hintegrations ▸ Keyed.forall_get?_insert h.accepts (h.accepts _ _ hget)⟩
  | @integrationIdentified _ _ name id integration hget hdefinitions hintegrations =>
    refine ⟨hdefinitions ▸ h.checked, ?_⟩
    rw [hintegrations]
    obtain ⟨definition, hnoted, haccepts⟩ := h.accepts name integration hget
    exact Keyed.forall_get?_insert h.accepts
      ⟨definition, hnoted, haccepts.id_eq, haccepts.check_eq⟩
  | assigned => cases hcommand

/-- **A step keeps the invariant.** -/
theorem Sound.step {noted : List (String × Definition)} {session : Session}
    (h : Sound noted session) {command : Command} (hcommand : command.isAssignment = false) :
    Sound (note noted (session.acceptance command (session.step command).2))
      (session.step command).1 :=
  h.effect hcommand (effect_step session command)

/-- **A run keeps the invariant**, with everything noted that is accepted on the way. -/
theorem Sound.run {noted : List (String × Definition)} {session : Session}
    (h : Sound noted session) {commands : List Command}
    (hcommands : ∀ command ∈ commands, command.isAssignment = false) :
    Sound ((acceptances session commands).foldl
      (fun noted entry => Keyed.insert entry.1 entry.2 noted) noted)
      (session.run commands).1 := by
  induction commands generalizing noted session with
  | nil => exact h
  | cons command rest ih =>
    obtain ⟨hcommand, hrest⟩ := List.forall_mem_cons.mp hcommands
    have hstep := ih (h.step hcommand) hrest
    rw [acceptances, List.foldl_append]
    cases hacceptance : session.acceptance command (session.step command).2 with
    | none => rwa [hacceptance] at hstep
    | some entry => rwa [hacceptance] at hstep

/-! ### The definitions that are noted -/

/-- The definition of an acceptance stands in a slot of the session. -/
theorem exists_slot_of_acceptance {session : Session} {command : Command} {reply : Reply}
    {entry : String × Definition} (h : session.acceptance command reply = some entry) :
    ∃ slot, Keyed.get? slot session.definitions = some entry.2 := by
  unfold acceptance at h
  split at h
  · obtain ⟨definition, hget, rfl⟩ := Option.map_eq_some_iff.mp h
    exact ⟨_, hget⟩
  · obtain ⟨definition, hget, rfl⟩ := Option.map_eq_some_iff.mp h
    exact ⟨_, hget⟩
  · cases h

/-- The definitions of all acceptances of a run stand in a slot at some time. -/
theorem exists_slot_of_mem_acceptances {session : Session} {commands : List Command}
    {entry : String × Definition} (h : entry ∈ acceptances session commands) :
    ∃ past slot, past <+: commands ∧
      Keyed.get? slot (session.run past).1.definitions = some entry.2 := by
  induction commands generalizing session with
  | nil => cases h
  | cons command rest ih =>
    rw [acceptances, List.mem_append, Option.mem_toList] at h
    rcases h with h | h
    · obtain ⟨slot, hslot⟩ := exists_slot_of_acceptance h
      exact ⟨[], slot, List.nil_prefix, hslot⟩
    · obtain ⟨past, slot, hpast, hslot⟩ := ih h
      exact ⟨command :: past, slot, List.cons_prefix_cons.mpr ⟨rfl, hpast⟩, hslot⟩

/-- The definition that was passed last is one that is obtained in the run. -/
theorem obtains_of_lastAcceptance? {commands past : List Command} {name : String}
    {definition : Definition} (hpast : past <+: commands)
    (h : lastAcceptance? past name = some definition) : Obtains commands definition := by
  refine Keyed.forall_get?_ofList (P := fun _ found => Obtains commands found) ?_ name
    definition h
  intro entry hentry
  obtain ⟨earlier, slot, hearlier, hslot⟩ := exists_slot_of_mem_acceptances hentry
  exact ⟨earlier, slot, hearlier.trans hpast, hslot⟩

/-! ### The main statement -/

/-- A run without assignments leads to a sound session. -/
theorem sound_after {past commands : List Command} (hpast : past <+: commands)
    (hcommands : ∀ command ∈ commands, command.isAssignment = false) :
    Sound (Keyed.ofList (acceptances {} past)) (after past) :=
  Sound.empty.run fun command hcommand => hcommands command (hpast.subset hcommand)

/-- **Along every run of the operations of the library**, failing ones included: the schema of
every definition passes under its own depth; every integration holds a configuration that
meets the schema of the definition that was last passed to it with success, and remembers
the identifier that this definition had; an integration refuses every definition with
another identifier as a mismatch, and, if all definitions of the run with its identifier
have one schema, it is valid for each of them. -/
theorem run_keeps_integrations_valid {commands : List Command}
    (hcommands : ∀ command ∈ commands, command.isAssignment = false) :
    (∀ definition, Obtains commands definition →
      Schema.check definition.schema (Int32.ofNat (Schema.depth definition.schema)) = .ok ()) ∧
    ∀ past name integration, Holds commands past name integration →
      (∃ definition, lastAcceptance? past name = some definition ∧
        Payload.check definition.schema integration.configuration.payload = .ok () ∧
          definition.id = integration.definitionId) ∧
      (∀ definition : Definition, definition.id ≠ integration.definitionId →
        integration.validate definition =
          .error (.definitionMismatch integration.definitionId definition.id)) ∧
      (OneSchemaFor commands integration.definitionId →
        ∀ definition, Obtains commands definition →
          definition.id = integration.definitionId →
            integration.validate definition = .ok ()) := by
  constructor
  · rintro definition ⟨past, name, hpast, hget⟩
    exact (sound_after hpast hcommands).checked name definition hget
  · rintro past name integration ⟨hpast, hget⟩
    obtain ⟨passed, hlast, haccepts⟩ :=
      (sound_after hpast hcommands).accepts name integration hget
    refine ⟨⟨passed, hlast, haccepts.check_eq, haccepts.id_eq⟩,
      fun definition => Integration.validate_of_id_ne, fun hone definition hobtained hid => ?_⟩
    have hschema : definition.schema = passed.schema :=
      hone definition passed hobtained (obtains_of_lastAcceptance? hpast hlast) hid
        haccepts.id_eq
    exact Integration.validate_eq_ok_iff.mpr ⟨hid, hschema ▸ haccepts.check_eq⟩

/-! ### A run with refused updates -/

/-- Definitions of one schema can be looked for among all that ever stand in a slot. -/
theorem oneSchemaFor_of_forall_inits {commands : List Command} {id : String} {schema : Schema}
    (h : ∀ past ∈ commands.inits, ∀ entry ∈ (after past).definitions,
      entry.2.id = id → entry.2.schema = schema) : OneSchemaFor commands id := by
  have hone : ∀ definition : Definition, Obtains commands definition → definition.id = id →
      definition.schema = schema := by
    rintro definition ⟨past, name, hpast, hget⟩ hid
    exact h past ((List.mem_inits _ _).mpr hpast) (name, definition)
      (Keyed.mem_of_get?_eq_some hget) hid
  intro definition definition' hobtained hobtained' hid hid'
  rw [hone definition hobtained hid, hone definition' hobtained' hid']

/-- A definition that asks for a host. -/
def hostsDefinition : Definition :=
  ⟨"definition-1", "db", .source, [⟨"host", .string, true, false, []⟩]⟩

/-- Two definitions without an identifier at first, an integration of one of them, and two
updates that are refused: the empty configuration does not meet the schema, and the other
definition has another identifier. -/
def refusedUpdates : List Command :=
  [.define "hosts" "db" "source" (.given (.fields hostsDefinition.schema)) none,
    .define "anything" "log" "destination" (.given (.fields [])) (some 0),
    .identifyDefinition "hosts" "definition-1",
    .configure "local" (.entries [("host", .string "localhost")]) (.ofDefinition "hosts"),
    .create "primary" "prod" "workspace" "hosts" "local",
    .identifyDefinition "anything" "definition-2",
    .configureDefault "empty",
    .update "primary" "hosts" "empty",
    .update "primary" "anything" "empty"]

/-- The integration after the refused updates. -/
def primaryIntegration : Integration :=
  ⟨"", "prod", "workspace", "definition-1", ⟨[("host", .string "localhost")]⟩⟩

/-- The refused updates leave an integration that its definition accepts. -/
theorem run_keeps_integrations_valid_refusedUpdates :
    (∀ command ∈ refusedUpdates, command.isAssignment = false) ∧
      OneSchemaFor refusedUpdates primaryIntegration.definitionId ∧
      Holds refusedUpdates refusedUpdates "primary" primaryIntegration ∧
      Obtains refusedUpdates hostsDefinition ∧
      primaryIntegration.validate hostsDefinition = .ok () := by
  have hcommands : ∀ command ∈ refusedUpdates, command.isAssignment = false := by decide
  have hone : OneSchemaFor refusedUpdates primaryIntegration.definitionId :=
    oneSchemaFor_of_forall_inits (show ∀ past ∈ refusedUpdates.inits,
      ∀ entry ∈ (after past).definitions, entry.2.id = primaryIntegration.definitionId →
        entry.2.schema = hostsDefinition.schema by decide)
  have hholds : Holds refusedUpdates refusedUpdates "primary" primaryIntegration :=
    ⟨List.prefix_rfl, rfl⟩
  have hobtains : Obtains refusedUpdates hostsDefinition :=
    ⟨refusedUpdates, "hosts", List.prefix_rfl, rfl⟩
  have hvalid := ((run_keeps_integrations_valid hcommands).2 _ _ _ hholds).2.2 hone
  exact ⟨hcommands, hone, hholds, hobtains, hvalid hostsDefinition hobtains rfl⟩

end Session

end ConfigSchema
