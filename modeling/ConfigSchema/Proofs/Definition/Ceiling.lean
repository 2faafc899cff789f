import ConfigSchema.Proofs.Definition.Checked
import ConfigSchema.Proofs.Schema.Ceiling

/-!
# Definitions under any ceiling

A definition is checked once, under the ceiling of the settings that it was made with, and may be
checked again under the ceiling of other settings. Nothing but its depth can fail then: whichever
constructor it comes from (`ConfigSchema.Definition.Obtained`), its schema passes under its own
depth, and a cause other than the depth would be the cause under that ceiling as well.

So the verdict on a definition is a comparison of two numbers, and on a schema a verdict that is
not about the depth stays as it is when the ceiling is raised
(`ConfigSchema.Definition.ceiling_monotone`).
-/

namespace ConfigSchema

namespace Definition

/-- **The definitions that can be obtained**: they are made, under the default ceiling or another
one, or loaded from a document, and they may be given an identifier afterwards. -/
inductive Obtained : Definition → Prop
  /-- It is made under the default ceiling. -/
  | create {name kindName : String} {schema : Schema} {definition : Definition}
      (create_eq : Definition.create name kindName schema = .ok definition) : Obtained definition
  /-- It is made under the ceiling of some settings. -/
  | createWith {name kindName : String} {schema : Schema} {engine : EngineConfig}
      {definition : Definition}
      (create_eq : Definition.createWith name kindName schema engine = .ok definition) :
    Obtained definition
  /-- It is loaded, from a string or a file, in one pass or by way of a tree. -/
  | load {document : Document} {definition : Definition}
      (load_eq : Definition.document.load document = .ok definition) : Obtained definition
  /-- It is given an identifier. -/
  | withId {definition : Definition} (id : String) (obtained : Obtained definition) :
    Obtained (definition.withId id)

variable {definition : Definition} {engine : EngineConfig}

/-- **Every definition has been checked**, wherever it comes from. -/
theorem Obtained.checked (h : definition.Obtained) : definition.Checked := by
  induction h with
  | create hcreate =>
    obtain ⟨kind, -, hcheck, rfl⟩ := createWith_eq_ok_iff.mp hcreate
    exact checked_of_check hcheck
  | createWith hcreate =>
    obtain ⟨kind, -, hcheck, rfl⟩ := createWith_eq_ok_iff.mp hcreate
    exact checked_of_check hcheck
  | load hload => exact checked_of_check (check_of_load hload)
  | withId id _ ih => exact ih.withId id

/-- **A definition that has been checked is valid** exactly under the ceilings that its depth is
within. -/
theorem Checked.validate_eq_ok_iff_depth_le (h : definition.Checked) :
    definition.validate engine = .ok () ↔
      (Schema.depth definition.schema : Int) ≤ engine.maxSchemaDepth.toInt := by
  have hlevels := (Schema.check_eq_ok_iff_reaches.mp h).2
  rw [validate_eq_ok_iff, Schema.check_eq_ok_iff_reaches]
  exact ⟨fun hvalid => hvalid.1, fun hdepth => ⟨hdepth, hlevels⟩⟩

/-- **A definition that has been checked fails for its depth alone**, under one label for each
level that the ceiling allows. -/
theorem Checked.exists_validate_eq_error (h : definition.Checked)
    (hdeep : engine.maxSchemaDepth.toInt < Schema.depth definition.schema) :
    ∃ cause, definition.validate engine = .error (.invalidSchema cause) ∧
      cause.rootCause = .depthExceeded ∧
      (cause.labels.length : Int) = max 0 (engine.maxSchemaDepth.toInt + 1) := by
  cases hcheck : Schema.check definition.schema engine.maxSchemaDepth with
  | ok =>
    have hdepth := (Schema.check_eq_ok_iff_reaches.mp hcheck).1
    omega
  | error cause =>
    have hroot : cause.rootCause = .depthExceeded := by
      refine Decidable.byContradiction fun hne => ?_
      -- the schema passes under its own depth, which is above the ceiling
      have hdepth := (Schema.check_eq_ok_iff_reaches.mp h).1
      have hle : engine.maxSchemaDepth ≤ Int32.ofNat (Schema.depth definition.schema) :=
        Int32.le_iff_toInt_le.mpr (by omega)
      have hfails := Schema.check_eq_error_of_le hle hcheck hne
      rw [h] at hfails
      cases hfails
    refine ⟨cause, ?_, hroot, Schema.length_labels_of_depthExceeded hcheck hroot⟩
    rw [validate, hcheck]
    rfl

/-! ### The main statement -/

/-- **Raising the ceiling keeps every verdict that is not about the depth.** If a schema passes
under a ceiling, or fails for another cause than its depth, the answer under every higher ceiling
is the same, down to the wrappers of the error. And a definition, wherever it comes from, is valid
under some settings exactly if the depth of its schema is within their ceiling; if it is not, the
root cause of its error is the depth, and it is wrapped by one label for each level that the
ceiling allows, by none if the ceiling is below zero. -/
theorem ceiling_monotone :
    (∀ (schema : Schema) (ceiling ceiling' : Int32), ceiling ≤ ceiling' →
      (Schema.check schema ceiling = .ok () ∨
        ∃ e, Schema.check schema ceiling = .error e ∧ e.rootCause ≠ .depthExceeded) →
      Schema.check schema ceiling' = Schema.check schema ceiling) ∧
    ∀ definition : Definition, definition.Obtained → ∀ engine : EngineConfig,
      (definition.validate engine = .ok () ↔
        (Schema.depth definition.schema : Int) ≤ engine.maxSchemaDepth.toInt) ∧
      (¬ (Schema.depth definition.schema : Int) ≤ engine.maxSchemaDepth.toInt →
        ∃ cause, definition.validate engine = .error (.invalidSchema cause) ∧
          cause.rootCause = .depthExceeded ∧
          (cause.labels.length : Int) = max 0 (engine.maxSchemaDepth.toInt + 1)) := by
  refine ⟨fun schema ceiling ceiling' => Schema.check_eq_of_le,
    fun definition hobtained engine => ?_⟩
  have hchecked : definition.Checked := hobtained.checked
  exact ⟨hchecked.validate_eq_ok_iff_depth_le,
    fun hdeep => hchecked.exists_validate_eq_error (Int.not_le.mp hdeep)⟩

/-- Two levels of `object` fields, and behind them a label that occurs twice. -/
def lateDuplicate : Schema :=
  [⟨"server", .object, true, false,
      [⟨"tls", .object, false, false, [⟨"verify", .boolean, false, false, []⟩]⟩]⟩,
    ⟨"port", .int, true, false, []⟩, ⟨"port", .string, false, false, []⟩]

/-- A definition of the same depth without the label that occurs twice, made under a ceiling of
two. -/
def twoLevels : Definition := ⟨"", "db", .source, lateDuplicate.take 2⟩

/-- The label that occurs twice is found under a ceiling of two, and hence under the highest
ceiling there is; a ceiling of one stops at the level below `server` and `tls`, and so does the
check of the definition under that ceiling. -/
theorem ceiling_monotone_lateDuplicate :
    Schema.check lateDuplicate 1 = .error (.wrap ["server", "tls"] .depthExceeded) ∧
      Schema.check lateDuplicate 2 = .error (.duplicateField "port") ∧
      Schema.check lateDuplicate 2147483647 = .error (.duplicateField "port") ∧
      twoLevels.Obtained ∧ twoLevels.validate ⟨2⟩ = .ok () ∧
      ∃ cause, twoLevels.validate ⟨1⟩ = .error (.invalidSchema cause) ∧
        cause.rootCause = .depthExceeded ∧ cause.labels.length = 2 := by
  have htwo : Schema.check lateDuplicate 2 = .error (.duplicateField "port") := rfl
  have hmade : twoLevels.Obtained :=
    .createWith (show createWith "db" "source" (lateDuplicate.take 2) ⟨2⟩ = .ok twoLevels from rfl)
  have hhigh := ceiling_monotone.1 lateDuplicate 2 2147483647 (by decide)
    (Or.inr ⟨_, htwo, by decide⟩)
  have hvalid := (ceiling_monotone.2 twoLevels hmade ⟨2⟩).1.mpr (by decide)
  obtain ⟨cause, hfails, hroot, hlength⟩ :=
    (ceiling_monotone.2 twoLevels hmade ⟨1⟩).2 (by decide)
  exact ⟨rfl, htwo, hhigh.trans htwo, hmade, hvalid, cause, hfails, hroot,
    Int.ofNat.inj hlength⟩

end Definition

end ConfigSchema
