import ConfigSchema.Proofs.Integration.Accepted
import Mathlib.Data.List.Forall2

/-!
# Updates in a row

An update brings a definition and a configuration. It is called on an integration, which is
changed in place or left alone, and it is answered. This file is about any number of updates
of one integration, accepted and refused ones in any order
(`ConfigSchema.Integration.updates`).

Two things carry every induction below.

* **An update touches the configuration only**
  (`ConfigSchema.Integration.update_frame`), and nothing of an integration but the identifier
  of its definition is looked at by the next one. Whether an update is accepted is therefore a
  question about the integration at the start
  (`ConfigSchema.Integration.Takes`).
* **A refused update does nothing**
  (`ConfigSchema.Integration.update_fst_of_not_takes`): the candidate with the new
  configuration is thrown away as a whole.

So the last accepted update alone decides how the run ends, and a refused one may as well
never have been called.
-/

namespace ConfigSchema

/-- A call that is to replace the configuration of an integration. -/
structure Update where
  /-- The definition that is passed. -/
  definition : Definition
  /-- The configuration that is to stand in the integration. -/
  configuration : Configuration

namespace Integration

/-- **Calls an update**: the integration that the method leaves, and the answer. -/
def update (integration : Integration) (call : Update) :
    Integration × Except IntegrationError Unit :=
  match (updateConfiguration call.definition call.configuration).run integration with
  | .ok () after => (after, .ok ())
  | .error cause after => (after, .error cause)

/-- Calls updates one after the other: the integration in the end, and the answers in order. -/
def updates (integration : Integration) :
    List Update → Integration × List (Except IntegrationError Unit)
  | [] => (integration, [])
  | call :: rest =>
    let (next, answer) := integration.update call
    let (last, answers) := next.updates rest
    (last, answer :: answers)

/-- **An integration takes an update**: the definition that is passed accepts it with the new
configuration. The old configuration has no say. -/
def Takes (integration : Integration) (call : Update) : Prop :=
  call.definition.Accepts { integration with configuration := call.configuration }

/-- **The answer to an update**, as a function of the identifier that the integration
remembers: success exactly for the updates that it takes, a mismatch whenever the definition
has another identifier, and else the fault of the configuration. -/
structure Answers (integration : Integration) (call : Update)
    (answer : Except IntegrationError Unit) : Prop where
  /-- Success is for the updates that are taken. -/
  ok_iff : answer = .ok () ↔ integration.Takes call
  /-- Another identifier is a mismatch, whatever the configuration is. -/
  mismatch : call.definition.id ≠ integration.definitionId →
    answer = .error (.definitionMismatch integration.definitionId call.definition.id)
  /-- Under the identifier it remembers, an integration reports what is wrong with the
  configuration. -/
  invalid : call.definition.id = integration.definitionId →
    ∀ cause, Payload.check call.definition.schema call.configuration.payload = .error cause →
      answer = .error (.invalidConfiguration cause)

variable {integration : Integration} {call : Update} {calls : List Update}

/-! ### One update -/

/-- An update that is taken puts its configuration into the integration. -/
theorem update_of_takes (h : integration.Takes call) :
    integration.update call =
      ({ integration with configuration := call.configuration }, .ok ()) := by
  rw [update, run_updateConfiguration_eq_ok_iff.mpr ⟨h, rfl⟩]

/-- A refused update is answered by why the integration would not be valid with it. -/
theorem update_of_validate_eq_error {cause : IntegrationError}
    (h : { integration with configuration := call.configuration }.validate call.definition =
      .error cause) :
    integration.update call = (integration, .error cause) := by
  rw [update, run_updateConfiguration, h]

/-- **A refused update leaves the integration as it was**, and there is a cause. -/
theorem exists_update_eq_of_not_takes (h : ¬ integration.Takes call) :
    ∃ cause, integration.update call = (integration, .error cause) := by
  cases hvalidate :
    { integration with configuration := call.configuration }.validate call.definition with
  | ok _ => exact absurd (validate_eq_ok_iff.mp hvalidate) h
  | error cause => exact ⟨cause, update_of_validate_eq_error hvalidate⟩

theorem update_fst_of_not_takes (h : ¬ integration.Takes call) :
    (integration.update call).1 = integration := by
  obtain ⟨cause, hupdate⟩ := exists_update_eq_of_not_takes h
  rw [hupdate]

/-- An error is the answer to a refused update. -/
theorem not_takes_of_update_snd {cause : IntegrationError}
    (h : (integration.update call).2 = .error cause) : ¬ integration.Takes call := by
  intro htakes
  rw [update_of_takes htakes] at h
  cases h

/-- **An update touches the configuration only.** -/
theorem update_frame (integration : Integration) (call : Update) :
    (integration.update call).1 =
      { integration with configuration := (integration.update call).1.configuration } := by
  by_cases h : integration.Takes call
  · rw [update_of_takes h]
  · rw [update_fst_of_not_takes h]

/-- An update has its answer. -/
theorem answers_update (integration : Integration) (call : Update) :
    integration.Answers call (integration.update call).2 where
  ok_iff := by
    constructor
    · intro h
      by_contra hnot
      obtain ⟨cause, hupdate⟩ := exists_update_eq_of_not_takes hnot
      rw [hupdate] at h
      cases h
    · intro h
      rw [update_of_takes h]
  mismatch hid := by
    rw [update_of_validate_eq_error (validate_of_id_ne hid)]
  invalid hid cause hcheck := by
    have hvalidate : { integration with configuration := call.configuration }.validate
        call.definition = .error (.invalidConfiguration cause) := by
      rw [validate, if_pos hid, Configuration.validate, hcheck]
      rfl
    rw [update_of_validate_eq_error hvalidate]

/-! ### The next update sees the same integration

Up to its configuration, that is; the two statements below unfold to themselves. -/

theorem takes_update_iff {other : Update} :
    (integration.update other).1.Takes call ↔ integration.Takes call := by
  rw [update_frame]
  exact Iff.rfl

theorem Answers.of_update {other : Update} {answer : Except IntegrationError Unit}
    (h : (integration.update other).1.Answers call answer) :
    integration.Answers call answer := by
  rw [update_frame] at h
  exact ⟨h.ok_iff, h.mismatch, h.invalid⟩

/-! ### Runs -/

theorem updates_cons (integration : Integration) (call : Update) (rest : List Update) :
    integration.updates (call :: rest) =
      (((integration.update call).1.updates rest).1,
        (integration.update call).2 :: ((integration.update call).1.updates rest).2) := rfl

/-- **Every update of a run is answered as if it were the first.** -/
theorem answers_updates (integration : Integration) (calls : List Update) :
    List.Forall₂ integration.Answers calls (integration.updates calls).2 := by
  induction calls generalizing integration with
  | nil => exact .nil
  | cons call rest ih =>
    have hrest := (ih (integration.update call).1).imp fun _ _ => Answers.of_update
    exact .cons (answers_update integration call) hrest

/-- **The last update that is taken wins**; if there is none, nothing has changed. -/
theorem updates_fst (integration : Integration) (calls : List Update) :
    ((∀ call ∈ calls, ¬ integration.Takes call) ∧ (integration.updates calls).1 = integration) ∨
    ∃ before last after, calls = before ++ last :: after ∧ integration.Takes last ∧
      (∀ call ∈ after, ¬ integration.Takes call) ∧
      (integration.updates calls).1 =
        { integration with configuration := last.configuration } := by
  induction calls generalizing integration with
  | nil => exact .inl ⟨by simp, rfl⟩
  | cons call rest ih =>
    rw [updates_cons]
    rcases ih (integration.update call).1 with ⟨hnone, hend⟩ | ⟨before, last, after, hsplit, h⟩
    · have hrest : ∀ other ∈ rest, ¬ integration.Takes other :=
        fun other hother htakes => hnone other hother (takes_update_iff.mpr htakes)
      by_cases htakes : integration.Takes call
      · refine .inr ⟨[], call, rest, rfl, htakes, hrest, hend.trans ?_⟩
        rw [update_of_takes htakes]
      · refine .inl ⟨List.forall_mem_cons.mpr ⟨htakes, hrest⟩, hend.trans ?_⟩
        exact update_fst_of_not_takes htakes
    · obtain ⟨htakes, hafter, hend⟩ := h
      refine .inr ⟨call :: before, last, after, by rw [hsplit]; rfl,
        takes_update_iff.mp htakes, ?_, hend.trans ?_⟩
      · exact fun other hother h => hafter other hother (takes_update_iff.mpr h)
      · rw [update_frame]

/-- **A refused update can be left out**: the run ends the same, and the other answers are the
same. -/
theorem updates_eraseIdx {j : ℕ} {cause : IntegrationError}
    (h : (integration.updates calls).2[j]? = some (.error cause)) :
    integration.updates (calls.eraseIdx j) =
      ((integration.updates calls).1, (integration.updates calls).2.eraseIdx j) := by
  induction calls generalizing integration j with
  | nil => cases h
  | cons call rest ih =>
    rw [updates_cons] at h ⊢
    cases j with
    | zero =>
      have hrefused := not_takes_of_update_snd (Option.some.inj h)
      rw [update_fst_of_not_takes hrefused]
      rfl
    | succ j =>
      have hrest : (integration.update call).1.updates (rest.eraseIdx j) =
          (((integration.update call).1.updates rest).1,
            ((integration.update call).1.updates rest).2.eraseIdx j) := ih h
      rw [List.eraseIdx_cons_succ, updates_cons, hrest]
      rfl

/-! ### The main statement -/

/-- **Updates are atomic, and the last accepted one wins.** After any updates of an
integration, only its configuration can have changed, and it is that of the last update that
the integration takes, if there is one. Each update is answered by what it brings and by the
identifier that the integration remembers, whatever was called before it. An update that was
answered by an error can be left out: no other answer changes, nor does the end. -/
theorem updates_are_atomic (integration : Integration) (calls : List Update) :
    (((∀ call ∈ calls, ¬ integration.Takes call) ∧
        (integration.updates calls).1 = integration) ∨
      ∃ before last after, calls = before ++ last :: after ∧ integration.Takes last ∧
        (∀ call ∈ after, ¬ integration.Takes call) ∧
        (integration.updates calls).1 =
          { integration with configuration := last.configuration }) ∧
    List.Forall₂ integration.Answers calls (integration.updates calls).2 ∧
    ∀ j cause, (integration.updates calls).2[j]? = some (.error cause) →
      integration.updates (calls.eraseIdx j) =
        ((integration.updates calls).1, (integration.updates calls).2.eraseIdx j) :=
  ⟨updates_fst integration calls, answers_updates integration calls,
    fun _ _ => updates_eraseIdx⟩

/-- Under its own identifier an integration takes what meets the schema that is passed, and
it refuses another identifier even for a configuration that is not checked at all. -/
example :
    let host : Schema := [⟨"host", .string, true, false, []⟩]
    let stored (value : Value) : Configuration := ⟨[("host", value)]⟩
    let calls : List Update :=
      [⟨⟨"definition", "db", .source, host⟩, stored (.string "localhost")⟩,
        ⟨⟨"definition", "db", .source, host⟩, {}⟩,
        ⟨⟨"other", "db", .source, host⟩, {}⟩]
    updates ⟨"integration", "prod", "workspace", "definition", {}⟩ calls =
      (⟨"integration", "prod", "workspace", "definition", stored (.string "localhost")⟩,
        [.ok (), .error (.invalidConfiguration (.missingRequiredField "host")),
          .error (.definitionMismatch "definition" "other")]) := rfl

end Integration

end ConfigSchema
