import ConfigSchema.Proofs.Payload.Blame
import ConfigSchema.Proofs.Payload.Cutoff
import ConfigSchema.Proofs.Payload.Damage

/-!
# The depth of a schema bounds the check of payloads

The ceiling for the nesting of a schema is checked once, when the schema is defined. It then
bounds what a payload can do to the check later on, however deep the payload is: an error is
wrapped at most once as an object for every level of the schema, and at most once more as an
element of an array; and no more levels are ever open than the ceiling allows
(`ConfigSchema.Payload.check_bounded_by_depth`).

An error is wrapped along the steps to its place, and every step but the last goes one level
down (`ConfigSchema.Payload.Leads.length_add_depth_le`). So its wrappers are counted by its
steps.
-/

namespace ConfigSchema

namespace ValidationError

/-! ### Counting wrappers -/

/-- How often an error has been wrapped as the fault of an object. -/
def objectWrappers : ValidationError → Nat
  | .invalidObject _ cause => cause.objectWrappers + 1
  | .invalidArrayElement _ _ cause => cause.objectWrappers
  | _ => 0

/-- How often an error has been wrapped as the fault of an element of an array. -/
def elementWrappers : ValidationError → Nat
  | .invalidObject _ cause => cause.elementWrappers
  | .invalidArrayElement _ _ cause => cause.elementWrappers + 1
  | _ => 0

/-- **An element is at fault for its kind or as an object**: whatever is wrapped as the fault
of an element of an array is a mismatch of types or the fault of an object, with the label of
the array. -/
def ElementsExplained (e : ValidationError) : Prop :=
  ∀ label index cause, .invalidArrayElement label index cause ∈ e.chain →
    (∃ expected actual, cause = .typeMismatch label expected actual) ∨
      ∃ inner, cause = .invalidObject label inner

variable {e cause : ValidationError} {label : String}

/-- An error that wraps nothing has no wrappers, and nothing but itself in its chain. -/
theorem wrappers_of_not_isWrapper (h : e.isWrapper = false) :
    e.objectWrappers = 0 ∧ e.elementWrappers = 0 ∧ e.chain = [e] := by
  cases e with
  | invalidArrayElement => cases h
  | invalidObject => cases h
  | _ => exact ⟨rfl, rfl, rfl⟩

theorem elementsExplained_of_not_isWrapper (h : e.isWrapper = false) : e.ElementsExplained := by
  intro label index cause hmem
  rw [(wrappers_of_not_isWrapper h).2.2, List.mem_singleton] at hmem
  rw [← hmem] at h
  cases h

/-- Another object around an error explains its elements as before. -/
theorem ElementsExplained.invalidObject (h : cause.ElementsExplained) :
    (ValidationError.invalidObject label cause).ElementsExplained := by
  intro label' index' cause' hmem
  rcases List.mem_cons.mp hmem with heq | hmem
  · cases heq
  · exact h label' index' cause' hmem

/-- An element around an error is explained by the error. -/
theorem ElementsExplained.invalidArrayElement {index : Nat} (h : cause.ElementsExplained)
    (hcause : (∃ expected actual, cause = .typeMismatch label expected actual) ∨
      ∃ inner, cause = .invalidObject label inner) :
    (ValidationError.invalidArrayElement label index cause).ElementsExplained := by
  intro label' index' cause' hmem
  rcases List.mem_cons.mp hmem with heq | hmem
  · obtain ⟨rfl, -, rfl⟩ := ValidationError.invalidArrayElement.inj heq
    exact hcause
  · exact h label' index' cause' hmem

end ValidationError

namespace Payload

variable {steps : List Step} {step last : Step} {leaf cause : ValidationError}

/-! ### Wrappers along steps -/

/-- A step wraps an error at most once as an element, and never as an object. -/
theorem Step.wrappers_wrapElement (step : Step) (cause : ValidationError) :
    (step.wrapElement cause).objectWrappers = cause.objectWrappers ∧
      (step.wrapElement cause).elementWrappers ≤ cause.elementWrappers + 1 := by
  obtain ⟨label, index⟩ := step
  cases index with
  | none => exact ⟨rfl, Nat.le_succ _⟩
  | some i => exact ⟨rfl, Nat.le_refl _⟩

/-- **An error has one wrapper as an object for every step but the last**, and at most one as
an element for every step. -/
theorem wrappers_wrap (steps : List Step) (last : Step) (hleaf : leaf.isWrapper = false) :
    (wrap steps last leaf).objectWrappers = steps.length ∧
      (wrap steps last leaf).elementWrappers ≤ steps.length + 1 := by
  obtain ⟨hobject, helement, -⟩ := ValidationError.wrappers_of_not_isWrapper hleaf
  induction steps with
  | nil =>
    obtain ⟨hobject', helement'⟩ := last.wrappers_wrapElement leaf
    rw [helement] at helement'
    exact ⟨hobject'.trans hobject, helement'⟩
  | cons step steps ih =>
    obtain ⟨hobject', helement'⟩ :=
      step.wrappers_wrapElement (.invalidObject step.label (wrap steps last leaf))
    refine ⟨hobject'.trans (congrArg (· + 1) ih.1), ?_⟩
    exact Nat.le_trans helement' (Nat.succ_le_succ ih.2)

/-- The elements of an error that is wrapped along steps are explained, if the innermost fault
is a mismatch of types wherever the last step has an index. -/
theorem elementsExplained_wrap (hleaf : leaf.isWrapper = false)
    (hlast : ∀ i, last.index = some i →
      ∃ expected actual, leaf = .typeMismatch last.label expected actual) :
    (wrap steps last leaf).ElementsExplained := by
  induction steps with
  | nil =>
    have hexplained := ValidationError.elementsExplained_of_not_isWrapper hleaf
    obtain ⟨label, index⟩ := last
    cases index with
    | none => exact hexplained
    | some i => exact hexplained.invalidArrayElement (Or.inl (hlast i rfl))
  | cons step steps ih =>
    obtain ⟨label, index⟩ := step
    cases index with
    | none => exact ih.invalidObject
    | some i => exact ih.invalidObject.invalidArrayElement (Or.inr ⟨_, rfl⟩)

/-- **Every step goes one level down**, so there are no more steps than levels. -/
theorem Leads.length_add_depth_le {schema level : Schema} {payload reached : Payload}
    (h : Leads schema payload steps level reached) :
    steps.length + Schema.depth level ≤ Schema.depth schema := by
  induction h with
  | here => simp
  | into hf _ hobject _ _ ih =>
    have hdepth := Schema.depth_le_iff.mp (Nat.le_refl _) _ hf hobject
    rw [List.length_cons]
    omega

/-- What is at fault at a field whose type is recognised is neither an unsupported type nor a
payload that is no map, and at an index it is a mismatch of types. -/
theorem FaultAt.of_isKnown {f : Field} {entries : Payload} (h : FaultAt f step entries leaf)
    (hknown : f.type.isKnown = true) :
    (∀ label name, leaf ≠ .unsupportedFieldType label name) ∧
      (∀ kind, leaf ≠ .notAnObject kind) ∧
      ∀ i, step.index = some i →
        ∃ expected actual, leaf = .typeMismatch f.label expected actual := by
  cases h with
  | missing hindex =>
    exact ⟨by simp, by simp, fun i hi => by rw [hindex] at hi; cases hi⟩
  | empty hindex =>
    exact ⟨by simp, by simp, fun i hi => by rw [hindex] at hi; cases hi⟩
  | noList => exact ⟨by simp, by simp, fun i _ => ⟨_, _, rfl⟩⟩
  | mismatch => exact ⟨by simp, by simp, fun i _ => ⟨_, _, rfl⟩⟩
  | unsupported _ _ htype =>
    rw [FieldType.isKnown_eq_false_iff.mpr ⟨_, htype⟩] at hknown
    cases hknown

/-! ### The main statement -/

/-- **The depth of a schema bounds the check of payloads.** If a schema has passed its own
check under some ceiling, then for every payload, however deep it is:

* an error never comes from an unsupported type or from a payload that is no map;
* it has at most as many wrappers as an object as the schema has levels below the first, and at
  most one more as an element, each of them around a mismatch of types or the fault of an
  object, with the same label;
* no more levels are ever open than the schema has, the first one counted, and so no more than
  the ceiling allows: the check that is cut off there gives the same answer. -/
theorem check_bounded_by_depth {schema : Schema} {ceiling : Int32}
    (hschema : Schema.check schema ceiling = .ok ()) (payload : Payload) :
    (∀ e, check schema payload = .error e →
      (∀ label name, e.rootCause ≠ .unsupportedFieldType label name) ∧
      (∀ kind, e.rootCause ≠ .notAnObject kind) ∧
      e.objectWrappers ≤ Schema.depth schema ∧
      e.elementWrappers ≤ Schema.depth schema + 1 ∧ e.ElementsExplained) ∧
    Cutoff.check (Schema.depth schema + 1) schema payload = some (check schema payload) ∧
    (Schema.depth schema + 1 : Int) ≤ ceiling.toInt + 1 ∧
    Cutoff.check (ceiling.toInt + 1).toNat schema payload = some (check schema payload) := by
  obtain ⟨hdepth, hwell⟩ := Schema.check_eq_ok_iff_reaches.mp hschema
  refine ⟨fun e he => ?_, Cutoff.check_eq_some (Nat.lt_succ_self _) payload, by omega,
    Cutoff.check_eq_some (by omega) payload⟩
  obtain ⟨steps, last, level, entries, f, leaf, hplace⟩ := exists_located_of_check_eq_error he
  have hleaf := hplace.fault.isWrapper_eq_false
  have hsteps := hplace.leads.length_add_depth_le
  have hknown := (hwell level hplace.leads.reaches).isKnown_type f hplace.mem
  obtain ⟨hsupported, hobject, hmismatch⟩ := hplace.fault.of_isKnown hknown
  obtain ⟨hobjects, helements⟩ := wrappers_wrap steps last hleaf
  rw [hplace.eq_wrap, rootCause_wrap steps last hleaf]
  refine ⟨hsupported, hobject, by omega, by omega, elementsExplained_wrap hleaf ?_⟩
  rw [hplace.fits.label_eq]
  exact hmismatch

/-- A cell of the second row is wrapped as often as its schema of two levels allows. -/
theorem check_bounded_by_depth_spoilt :
    let e : ValidationError := .invalidArrayElement "rows" 1 (.invalidObject "rows"
      (.invalidArrayElement "cells" 1 (.typeMismatch "cells" .int .string)))
    Schema.check [rowsOfCells] 1 = .ok () ∧ check [rowsOfCells] spoiltRows = .error e ∧
      Schema.depth [rowsOfCells] = 1 ∧
      e.objectWrappers = 1 ∧ e.elementWrappers = 2 ∧ e.ElementsExplained ∧
      Cutoff.check 2 [rowsOfCells] spoiltRows = some (.error e) := by
  intro e
  have hschema : Schema.check [rowsOfCells] 1 = .ok () := rfl
  obtain ⟨herror, hdepth, -, -⟩ := check_bounded_by_depth hschema spoiltRows
  exact ⟨hschema, rfl, rfl, rfl, rfl, (herror e rfl).2.2.2.2, hdepth⟩

end Payload

end ConfigSchema
