import ConfigSchema.Proofs.Payload.Verdict
import ConfigSchema.Proofs.Schema.WellFormed

/-!
# Places in a payload

A place is reached from the root by steps. A step goes from a map to what the map holds at
the label of a declared field, or, with an index, to an element of the list that it holds
there (`ConfigSchema.Payload.Step`). All steps of a place but the last lead to a map, and
from a level of the schema to the level below (`ConfigSchema.Payload.Leads`); the last one
says which field is meant there.

An error that is built from the inside out along such steps has them as its path: an element
of an array of objects is wrapped twice with one label, and the path shows that label once
(`ConfigSchema.Payload.fieldPath_wrap`).
-/

namespace ConfigSchema

namespace ValidationError

/-! ### Errors that wrap nothing -/

/-- The error wraps another one. -/
def isWrapper : ValidationError → Bool
  | .invalidArrayElement .. => true
  | .invalidObject .. => true
  | _ => false

/-- An error that wraps nothing is its own root cause. -/
theorem rootCause_of_not_isWrapper {e : ValidationError} (h : e.isWrapper = false) :
    e.rootCause = e := by
  cases e with
  | invalidArrayElement => cases h
  | invalidObject => cases h
  | _ => rfl

/-- An error that wraps nothing ends the path, with its label unless an index came before. -/
theorem continuePath_of_not_isWrapper {e : ValidationError} {path : String}
    {afterIndex : Bool} (h : e.isWrapper = false) :
    e.continuePath path afterIndex =
      if afterIndex then path else extendPath path e.ownLabel := by
  cases e with
  | invalidArrayElement => cases h
  | invalidObject => cases h
  | _ => rfl

end ValidationError

namespace Payload

/-! ### Steps -/

/-- A number is read back from its digits. -/
theorem eq_of_toString_eq {m n : Nat} (h : toString m = toString n) : m = n := by
  have hdigits : Nat.toDigits 10 m = Nat.toDigits 10 n := by
    rw [← Nat.toList_repr, ← Nat.toList_repr]
    exact congrArg String.toList h
  rw [← Nat.ofDigitChars_ten_toDigits (n := m), hdigits, Nat.ofDigitChars_ten_toDigits]

/-- **One step down** from a map. -/
structure Step where
  /-- The label of the field. -/
  label : String
  /-- The index of the element, if the step goes into an array. -/
  index : Option Nat
  deriving DecidableEq, Repr

namespace Step

/-- How a step is written: the label, followed by the index in brackets if there is one. -/
def render (step : Step) : String :=
  match step.index with
  | none => step.label
  | some i => step.label ++ "[" ++ toString i ++ "]"

/-- What a payload holds at a step. -/
def find? (step : Step) (payload : Payload) : Option Value :=
  match step.index with
  | none => Keyed.get? step.label payload
  | some i => ((Keyed.get? step.label payload).bind Value.items?).bind (·[i]?)

/-- **A step can be taken** at a field of a level: it has the label of the field, and an
index only if the field is an array and the payload holds a list there that has the
element. -/
structure Fits (step : Step) (f : Field) (payload : Payload) : Prop where
  /-- The label is the label of the field. -/
  label_eq : step.label = f.label
  /-- An index lies within the list of an array. -/
  index_lt : ∀ i, step.index = some i → f.isArray = true ∧
    ∃ items, Keyed.get? f.label payload = some (.list items) ∧ i < items.length

/-- The step to the value of a field. -/
def ofField (f : Field) : Step := ⟨f.label, none⟩

/-- The step to an element of an array field. -/
def ofElement (f : Field) (i : Nat) : Step := ⟨f.label, some i⟩

/-- The step to the value of a field can always be taken. -/
theorem fits_ofField (f : Field) (payload : Payload) : (ofField f).Fits f payload :=
  ⟨rfl, fun _ h => by cases h⟩

/-- The step to an element that is there can be taken, and finds it. -/
theorem fits_ofElement {f : Field} {payload : Payload} {before after : List Value} {v : Value}
    (isArray : f.isArray = true)
    (get_eq : Keyed.get? f.label payload = some (.list (before ++ v :: after))) :
    (ofElement f before.length).Fits f payload ∧
      (ofElement f before.length).find? payload = some v := by
  constructor
  · refine ⟨rfl, fun i hi => ⟨isArray, _, get_eq, ?_⟩⟩
    obtain rfl : before.length = i := Option.some.inj hi
    simp
  · simp [find?, ofElement, get_eq, Value.items?]

end Step

/-- **Steps lead down** from a schema and a payload to a level of the schema and a map in the
payload: each of them is taken at a declared `object` field and finds a map, and goes on
with the children of the field and the entries of the map. -/
inductive Leads : Schema → Payload → List Step → Schema → Payload → Prop
  /-- No step stays at the root. -/
  | here {schema : Schema} {payload : Payload} : Leads schema payload [] schema payload
  /-- One step more, at the front. -/
  | into {schema : Schema} {payload : Payload} {step : Step} {f : Field} {entries : Payload}
      {steps : List Step} {level : Schema} {reached : Payload} (mem : f ∈ schema)
      (fits : step.Fits f payload) (isObject : f.type = .object)
      (find_eq : step.find? payload = some (.map entries))
      (below : Leads f.children entries steps level reached) :
    Leads schema payload (step :: steps) level reached

/-- Steps lead to levels of the schema. -/
theorem Leads.reaches {schema level : Schema} {payload reached : Payload} {steps : List Step}
    (h : Leads schema payload steps level reached) : Schema.Reaches schema level := by
  induction h with
  | here => exact .root
  | into hf _ ho _ _ ih => exact .of_children hf ho ih

/-- The first step of a place has a label that the root of the schema declares. -/
theorem Leads.exists_mem_of_head {schema level : Schema} {payload reached : Payload}
    {steps : List Step} {last first : Step} {f : Field}
    (h : Leads schema payload steps level reached) (hf : f ∈ level)
    (hlast : last.Fits f reached) (hfirst : (steps ++ [last]).head? = some first) :
    ∃ g ∈ schema, first.label = g.label := by
  cases h with
  | here =>
    obtain rfl : last = first := Option.some.inj hfirst
    exact ⟨f, hf, hlast.label_eq⟩
  | into hg hfits =>
    obtain rfl := Option.some.inj hfirst
    exact ⟨_, hg, hfits.label_eq⟩

/-! ### How a path is written -/

/-- **How the steps of a place are written**: one after the other, joined by dots. -/
def renderPath (steps : List Step) : String := String.intercalate "." (steps.map Step.render)

/-- A step whose label is not empty is not written as nothing. -/
theorem Step.render_ne_empty {step : Step} (h : step.label ≠ "") : step.render ≠ "" := by
  rw [render]
  split
  · exact h
  · simp [h]

/-- The first step of a place is written as something, if the schema has no empty label at its
root. -/
theorem Leads.render_first_ne_empty {schema level : Schema} {payload reached : Payload}
    {steps : List Step} {last : Step} {f : Field}
    (h : Leads schema payload steps level reached) (hschema : ∀ g ∈ schema, g.label ≠ "")
    (hf : f ∈ level) (hlast : last.Fits f reached) (first : Step)
    (hfirst : (steps ++ [last]).head? = some first) : first.render ≠ "" := by
  obtain ⟨g, hg, hlabel⟩ := h.exists_mem_of_head hf hlast hfirst
  exact Step.render_ne_empty (hlabel ▸ hschema g hg)

/-- A path that is not empty is extended label by label to the labels joined by dots. -/
theorem foldl_extendPath {path : String} (h : path ≠ "") (labels : List String) :
    labels.foldl ValidationError.extendPath path = String.intercalate "." (path :: labels) := by
  induction labels generalizing path with
  | nil => exact String.intercalate_singleton.symm
  | cons label labels ih =>
    have hextend : ValidationError.extendPath path label = path ++ "." ++ label := if_neg h
    rw [List.foldl_cons, hextend, ih (by simp), String.intercalate_cons_append,
      String.intercalate_cons_cons]

/-! ### Errors that are built along steps -/

namespace Step

/-- The fault of what a step finds: of an element, wrapped with its index; of the value of a
field, as it is. -/
def wrapElement (step : Step) (cause : ValidationError) : ValidationError :=
  match step.index with
  | none => cause
  | some i => .invalidArrayElement step.label i cause

/-- The fault of an entry of the map that a step finds, wrapped on its way out. -/
def wrapMap (step : Step) (cause : ValidationError) : ValidationError :=
  step.wrapElement (.invalidObject step.label cause)

end Step

/-- **The error at a place**: the innermost fault, wrapped by the last step and by all steps
above it. -/
def wrap (steps : List Step) (last : Step) (leaf : ValidationError) : ValidationError :=
  steps.foldr Step.wrapMap (last.wrapElement leaf)

/-- An index that follows a label belongs to the segment of the label. -/
theorem extendPath_index (path label index : String) :
    ValidationError.extendPath path label ++ "[" ++ index ++ "]" =
      ValidationError.extendPath path (label ++ "[" ++ index ++ "]") := by
  simp only [ValidationError.extendPath]
  split <;> simp only [String.append_assoc]

/-- The path goes on behind a step with what the step is written as: the label that follows an
index is left out. -/
theorem continuePath_wrapMap (path : String) (step : Step) (cause : ValidationError) :
    (step.wrapMap cause).continuePath path false =
      cause.continuePath (ValidationError.extendPath path step.render) false := by
  obtain ⟨label, index⟩ := step
  cases index with
  | none => rfl
  | some i =>
    rw [Step.render, ← extendPath_index]
    rfl

/-- The path ends with what the last step is written as, as long as the innermost fault
carries the label of the step. -/
theorem continuePath_wrapElement {path : String} {step : Step} {leaf : ValidationError}
    (hleaf : leaf.isWrapper = false) (hlabel : leaf.ownLabel = step.label) :
    (step.wrapElement leaf).continuePath path false =
      ValidationError.extendPath path step.render := by
  obtain ⟨label, index⟩ := step
  cases index with
  | none =>
    rw [Step.wrapElement, ValidationError.continuePath_of_not_isWrapper hleaf, hlabel]
    rfl
  | some i =>
    rw [Step.render, ← extendPath_index]
    exact ValidationError.continuePath_of_not_isWrapper hleaf

/-- **The path of the error at a place** is how its steps are written, if the first of them is
written as something. -/
theorem fieldPath_wrap {steps : List Step} {last : Step} {leaf : ValidationError}
    (hleaf : leaf.isWrapper = false) (hlabel : leaf.ownLabel = last.label)
    (hfirst : ∀ first, (steps ++ [last]).head? = some first → first.render ≠ "") :
    (wrap steps last leaf).fieldPath = renderPath (steps ++ [last]) := by
  have hpath : ∀ (steps : List Step) (path : String),
      (wrap steps last leaf).continuePath path false =
        ((steps ++ [last]).map Step.render).foldl ValidationError.extendPath path := by
    intro steps
    induction steps with
    | nil => exact fun path => continuePath_wrapElement hleaf hlabel
    | cons step steps ih => exact fun path => (continuePath_wrapMap path step _).trans (ih _)
  rw [ValidationError.fieldPath, hpath, renderPath]
  cases hsteps : steps ++ [last] with
  | nil => simp at hsteps
  | cons first rest =>
    have hne : first.render ≠ "" := hfirst first (by rw [hsteps]; rfl)
    exact foldl_extendPath hne (rest.map Step.render)

/-- Wrapping along steps does not change the root cause. -/
theorem rootCause_wrap (steps : List Step) (last : Step) {leaf : ValidationError}
    (hleaf : leaf.isWrapper = false) : (wrap steps last leaf).rootCause = leaf := by
  have helement : ∀ (step : Step) (cause : ValidationError),
      (step.wrapElement cause).rootCause = cause.rootCause := by
    rintro ⟨label, index⟩ cause
    cases index <;> rfl
  induction steps with
  | nil => exact (helement last leaf).trans (ValidationError.rootCause_of_not_isWrapper hleaf)
  | cons step steps ih => exact (helement step _).trans ih

end Payload

end ConfigSchema
