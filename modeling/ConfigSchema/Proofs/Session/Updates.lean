import ConfigSchema.Proofs.Integration.Updates
import ConfigSchema.Proofs.Session.Effect

/-!
# Updates in a session

A session carries out an update as `ConfigSchema.Integration.update` says, on the integration
in a slot. Commands that update one integration in a row therefore do what
`ConfigSchema.Integration.updates` does (`ConfigSchema.Session.run_updates`): the slots of the
definitions and configurations that the commands name are not touched on the way, so each
command brings what stood there at the start.
-/

namespace ConfigSchema

/-- The answer that a reply to an update reports. -/
def Reply.answer? : Reply → Option (Except IntegrationError Unit)
  | .updated _ => some (.ok ())
  | .notUpdated cause _ => some (.error cause)
  | _ => none

namespace Session

/-- **The slots of a definition and of a configuration hold an update.** -/
structure Brings (session : Session) (slots : String × String) (call : Update) : Prop where
  /-- The definition of the update is in the first slot. -/
  definition_eq : Keyed.get? slots.1 session.definitions = some call.definition
  /-- The configuration of the update is in the second slot. -/
  configuration_eq : Keyed.get? slots.2 session.configurations = some call.configuration

variable {session : Session} {name : String} {slots : String × String}
  {integration : Integration} {call : Update}

/-- The command is carried out: the integration goes back into its slot as the update leaves it,
and the reply has the answer. -/
theorem step_update (hname : Keyed.get? name session.integrations = some integration)
    (hslots : session.Brings slots call) :
    session.step (.update name slots.1 slots.2) =
      (session.putIntegration name (integration.update call).1,
        match (integration.update call).2 with
        | .ok () => .updated (integration.update call).1
        | .error cause => .notUpdated cause (integration.update call).1) := by
  have hconfiguration := slot_eq_ok_iff.mpr hslots.configuration_eq
  have hintegration := slot_eq_ok_iff.mpr hname
  have hdefinition := slot_eq_ok_iff.mpr hslots.definition_eq
  rw [step, attempt, hconfiguration, hintegration, hdefinition, Integration.update]
  simp only [bind, Except.bind]
  cases (Integration.updateConfiguration call.definition call.configuration).run integration <;> rfl

/-- **What a step does that updates an integration**: the slot of the integration has it as
the update leaves it, all other slots are as before, and the reply reports the answer. -/
structure Updated (session : Session) (name : String) (after : Integration) (next : Session) :
    Prop where
  /-- The integration is in its slot. -/
  get_eq : Keyed.get? name next.integrations = some after
  /-- No other integration has changed. -/
  others_eq : ∀ other, name ≠ other →
    Keyed.get? other next.integrations = Keyed.get? other session.integrations
  /-- The definitions have not changed. -/
  definitions_eq : next.definitions = session.definitions
  /-- The configurations have not changed. -/
  configurations_eq : next.configurations = session.configurations

theorem updated_step (hname : Keyed.get? name session.integrations = some integration)
    (hslots : session.Brings slots call) :
    session.Updated name (integration.update call).1
        (session.step (.update name slots.1 slots.2)).1 ∧
      (session.step (.update name slots.1 slots.2)).2.answer? =
        some (integration.update call).2 := by
  rw [step_update hname hslots]
  refine ⟨⟨?_, fun other hother => ?_, rfl, rfl⟩, ?_⟩
  · simp only [putIntegration, Keyed.get?_insert, if_true]
  · simp only [putIntegration, Keyed.get?_insert, if_neg hother]
  · cases (integration.update call).2 <;> rfl

/-- Updates of a row of commands are brought from the same slots all along. -/
theorem Brings.of_updated {after : Integration} {next : Session}
    (h : session.Brings slots call) (hnext : session.Updated name after next) :
    next.Brings slots call :=
  ⟨hnext.definitions_eq ▸ h.definition_eq, hnext.configurations_eq ▸ h.configuration_eq⟩

/-- Two rows of updates are one. -/
theorem Updated.trans {after last : Integration} {next final : Session}
    (h : next.Updated name last final) (hfirst : session.Updated name after next) :
    session.Updated name last final where
  get_eq := h.get_eq
  others_eq other hother := (h.others_eq other hother).trans (hfirst.others_eq other hother)
  definitions_eq := h.definitions_eq.trans hfirst.definitions_eq
  configurations_eq := h.configurations_eq.trans hfirst.configurations_eq

theorem run_cons (session : Session) (command : Command) (rest : List Command) :
    session.run (command :: rest) =
      (((session.step command).1.run rest).1,
        (session.step command).2 :: ((session.step command).1.run rest).2) := rfl

/-- **Commands that update one integration in a row** leave it in its slot as the updates
leave it, report the answers, and change nothing else. -/
theorem run_updates {row : List (String × String)} {calls : List Update}
    (hname : Keyed.get? name session.integrations = some integration)
    (hrow : List.Forall₂ session.Brings row calls) :
    session.Updated name (integration.updates calls).1
        (session.run (row.map fun slots => .update name slots.1 slots.2)).1 ∧
      (session.run (row.map fun slots => .update name slots.1 slots.2)).2.map Reply.answer? =
        (integration.updates calls).2.map some := by
  induction calls generalizing session integration row with
  | nil =>
    cases hrow
    exact ⟨⟨hname, fun _ _ => rfl, rfl, rfl⟩, rfl⟩
  | cons call rest ih =>
    obtain - | ⟨hslots, hrest⟩ := hrow
    obtain ⟨hstep, hreply⟩ := updated_step hname hslots
    obtain ⟨hrun, hreplies⟩ := ih hstep.get_eq (hrest.imp fun _ _ h => h.of_updated hstep)
    refine ⟨hrun.trans hstep, ?_⟩
    rw [List.map_cons, run_cons, List.map_cons, hreply, hreplies, Integration.updates_cons]
    rfl

end Session

end ConfigSchema
