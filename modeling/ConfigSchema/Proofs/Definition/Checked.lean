import ConfigSchema.Loading
import ConfigSchema.Proofs.Schema.WellFormed

/-!
# Every definition has been checked

A definition is made by one of two constructors, one of which takes a ceiling, or it is read
from a document. Each way checks the schema under a ceiling of its own, and an identifier
that is assigned later leaves the schema alone. What all definitions have in common, whatever
the ceiling was, is that their schema passes under its own depth
(`ConfigSchema.Definition.Checked`).
-/

namespace ConfigSchema

namespace Schema

/-- **A schema that passes under some ceiling passes under its own depth**, the least ceiling
under which it can pass. -/
theorem check_depth_of_check {schema : Schema} {ceiling : Int32}
    (h : check schema ceiling = .ok ()) : check schema (Int32.ofNat (depth schema)) = .ok () := by
  obtain ⟨hdepth, hlevels⟩ := check_eq_ok_iff_reaches.mp h
  refine check_eq_ok_iff_reaches.mpr ⟨?_, hlevels⟩
  have hlt := ceiling.toInt_lt
  have hcount : (Int32.ofNat (depth schema)).toInt = depth schema :=
    Int32.toInt_ofNat_of_lt (by omega)
  exact Int.le_of_eq hcount.symm

end Schema

namespace Definition

/-- **The schema of a definition has been checked**: it passes under its own depth. -/
def Checked (definition : Definition) : Prop :=
  Schema.check definition.schema (Int32.ofNat (Schema.depth definition.schema)) = .ok ()

/-- A definition whose schema passes under some ceiling is a checked one. -/
theorem checked_of_check {definition : Definition} {ceiling : Int32}
    (h : Schema.check definition.schema ceiling = .ok ()) : definition.Checked :=
  Schema.check_depth_of_check h

/-- Another identifier does not change what has been checked. -/
theorem Checked.withId {definition : Definition} (h : definition.Checked) (id : String) :
    (definition.withId id).Checked := h

/-! ### Definitions that are made -/

/-- A definition is valid under some settings exactly if its schema passes under their
ceiling. -/
theorem validate_eq_ok_iff {definition : Definition} {engine : EngineConfig} :
    definition.validate engine = .ok () ↔
      Schema.check definition.schema engine.maxSchemaDepth = .ok () :=
  Outcome.mapError_eq_ok_iff

/-- **A definition is made** exactly if the name of the kind is known and the schema passes
under the ceiling; it starts without an identifier. -/
theorem createWith_eq_ok_iff {name kindName : String} {schema : Schema}
    {engine : EngineConfig} {definition : Definition} :
    createWith name kindName schema engine = .ok definition ↔
      ∃ kind, Kind.parse kindName = .ok kind ∧
        Schema.check schema engine.maxSchemaDepth = .ok () ∧
          definition = ⟨"", name, kind, schema⟩ := by
  rw [createWith]
  cases Kind.parse kindName with
  | error unknown => simp
  | ok kind =>
    simp only [Outcome.check_bind_eq_ok_iff, validate_eq_ok_iff, Except.ok.injEq,
      exists_eq_left']
    constructor
    · rintro ⟨hcheck, h⟩
      exact ⟨hcheck, (Except.ok.inj h).symm⟩
    · rintro ⟨hcheck, rfl⟩
      exact ⟨hcheck, rfl⟩

end Definition

/-! ### Definitions that are read -/

namespace Reading.RecordShape

variable {α σ : Type} {shape : RecordShape α σ} {inner : Option (List (Member σ))}

/-- A record that is read from text is a draft that has been finished. -/
theorem exists_finish_of_ofText {s : Input} {taken : Taken α s}
    (h : (shape.decoder inner).ofText s = .ok taken) :
    ∃ draft, shape.finish draft = .ok taken.value := by
  obtain ⟨head, -, h⟩ := Outcome.bind_eq_ok_iff.mp h
  dsimp only at h
  -- an object, an array or neither: in each case the draft, once there is one, is finished
  split at h <;> obtain ⟨draft, -, h⟩ := Outcome.bind_eq_ok_iff.mp h <;>
    obtain ⟨x, hfinish, h⟩ := Outcome.bind_eq_ok_iff.mp h <;> cases h <;>
    exact ⟨draft.value, hfinish⟩

/-- A record that is read from a tree is a draft that has been finished. -/
theorem exists_finish_of_ofTree {j : Json.Tree} {x : α}
    (h : (shape.decoder inner).ofTree j = .ok x) : ∃ draft, shape.finish draft = .ok x := by
  simp only [RecordShape.decoder] at h
  split at h <;> obtain ⟨draft, -, hfinish⟩ := Outcome.bind_eq_ok_iff.mp h <;>
    exact ⟨draft, hfinish⟩

end Reading.RecordShape

namespace Definition

/-- A definition that is finished from a draft has a schema that passes under the default
ceiling. -/
theorem check_of_finish {draft : Draft} {definition : Definition}
    (h : shape.finish draft = .ok definition) :
    Schema.check definition.schema Schema.defaultCeiling = .ok () := by
  obtain ⟨name, -, h⟩ := Outcome.bind_eq_ok_iff.mp h
  obtain ⟨kind, -, h⟩ := Outcome.bind_eq_ok_iff.mp h
  obtain ⟨schema, -, h⟩ := Outcome.bind_eq_ok_iff.mp h
  obtain ⟨_, hvalid, h⟩ := Outcome.bind_eq_ok_iff.mp h
  cases h
  exact validate_eq_ok_iff.mp (Outcome.mapError_eq_ok_iff.mp hvalid)

/-- **A definition that is loaded has been checked** under the default ceiling, whatever the
document is and however it is read. -/
theorem check_of_load {document : Document} {definition : Definition}
    (h : Definition.document.load document = .ok definition) :
    Schema.check definition.schema Schema.defaultCeiling = .ok () := by
  have hdecoder : Definition.document =
      shape.decoder (some (members (Schema.decoder (Reading.maxNesting - 1)))) := rfl
  have htext : ∀ {s : Reading.Input}, Definition.document.read s = .ok definition →
      Schema.check definition.schema Schema.defaultCeiling = .ok () := by
    intro s hread
    obtain ⟨rest, ⟨bound, hreads⟩, -⟩ := Reading.readAll_eq_ok_iff.mp hread
    obtain ⟨draft, hfinish⟩ := Reading.RecordShape.exists_finish_of_ofText (hdecoder ▸ hreads)
    exact check_of_finish hfinish
  cases document with
  | string text => exact htext (Outcome.mapError_eq_ok_iff.mp h)
  | file file =>
    cases file with
    | contents bytes => exact htext (Outcome.mapError_eq_ok_iff.mp h)
    | missing => cases h
    | directory => cases h
  | tree text =>
    obtain ⟨j, -, hread⟩ := Outcome.bind_eq_ok_iff.mp (Outcome.mapError_eq_ok_iff.mp h)
    obtain ⟨draft, hfinish⟩ := Reading.RecordShape.exists_finish_of_ofTree (hdecoder ▸ hread)
    exact check_of_finish hfinish

end Definition

end ConfigSchema
