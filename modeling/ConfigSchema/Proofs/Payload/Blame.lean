import ConfigSchema.Proofs.Payload.Place

/-!
# An error points at the offending place

The check of a payload stops at one place, and its error is made on the way back from there.
Whatever the schema is, the error is the innermost fault wrapped along the steps to the place
(`ConfigSchema.Payload.exists_located_of_check_eq_error`): the steps can be followed through
schema and payload, and the innermost fault tells the truth about what is found at their end
(`ConfigSchema.Payload.FaultAt`).

If the schema has passed its own check, no label on the way is empty and no type is unknown.
Then the path of the error is how the steps are written, its label is that of the last step,
and its root cause is a missing field, an empty array or a mismatch of types
(`ConfigSchema.Payload.check_error_points_at_place`).
-/

namespace ConfigSchema

namespace Payload

/-- **What is wrong at the end of a path**, at a field and with the step that was taken
there. -/
inductive FaultAt (f : Field) (step : Step) (entries : Payload) : ValidationError → Prop
  /-- A required field is absent. -/
  | missing (index_eq : step.index = none) (isRequired : f.required = true)
      (get_eq : Keyed.get? f.label entries = none) :
    FaultAt f step entries (.missingRequiredField f.label)
  /-- A required array has no elements. -/
  | empty (index_eq : step.index = none) (isRequired : f.required = true)
      (isArray : f.isArray = true) (get_eq : Keyed.get? f.label entries = some (.list [])) :
    FaultAt f step entries (.emptyRequiredArray f.label)
  /-- The value of an array field is no list of arbitrary values. -/
  | noList {v : Value} (index_eq : step.index = none) (isArray : f.isArray = true)
      (get_eq : Keyed.get? f.label entries = some v) (kind_ne : v.kind ≠ .list) :
    FaultAt f step entries (.typeMismatch f.label f.type v.kind)
  /-- The value of a field that is no array, or an element of an array, is of a kind that the
  declared type does not accept. -/
  | mismatch {v : Value} (isArray_eq : f.isArray = step.index.isSome)
      (find_eq : step.find? entries = some v) (refused : f.type.accepts v.kind = false) :
    FaultAt f step entries (.typeMismatch f.label f.type v.kind)
  /-- The declared type is not recognised, and there is a value or an element. -/
  | unsupported {v : Value} {name : String} (isArray_eq : f.isArray = step.index.isSome)
      (find_eq : step.find? entries = some v) (type_eq : f.type = .unknown name) :
    FaultAt f step entries (.unsupportedFieldType f.label name)

/-- The fault at the end of a path wraps nothing. -/
theorem FaultAt.isWrapper_eq_false {f : Field} {step : Step} {entries : Payload}
    {leaf : ValidationError} (h : FaultAt f step entries leaf) : leaf.isWrapper = false := by
  cases h <;> rfl

/-- The fault at the end of a path carries the label of the field. -/
theorem FaultAt.ownLabel_eq {f : Field} {step : Step} {entries : Payload}
    {leaf : ValidationError} (h : FaultAt f step entries leaf) : leaf.ownLabel = f.label := by
  cases h <;> rfl

/-- **An error stands at a place**: the steps can be followed to a level and a map, the last
one can be taken at a field of the level, the innermost fault is true there, and the error is
that fault wrapped along the steps. -/
structure Located (schema : Schema) (payload : Payload) (e : ValidationError)
    (steps : List Step) (last : Step) (level : Schema) (entries : Payload) (f : Field)
    (leaf : ValidationError) : Prop where
  /-- The steps but the last lead to a level and a map. -/
  leads : Leads schema payload steps level entries
  /-- The field is declared there. -/
  mem : f ∈ level
  /-- The last step can be taken. -/
  fits : last.Fits f entries
  /-- The fault is true. -/
  fault : FaultAt f last entries leaf
  /-- The error is the fault, wrapped on its way out. -/
  eq_wrap : e = wrap steps last leaf

/-- A fault of what a step finds at a field stands at a place, if the faults of the children
do. -/
theorem exists_located_of_valueFault {schema : Schema} {payload : Payload} {f : Field}
    {step : Step} {v : Value} {cause : ValidationError} (hf : f ∈ schema)
    (hfits : step.Fits f payload) (hfind : step.find? payload = some v)
    (harray : f.isArray = step.index.isSome)
    (ih : ∀ entries cause, check f.children entries = .error cause →
      ∃ steps last level reached g leaf,
        Located f.children entries cause steps last level reached g leaf)
    (h : ValueFault f.label f.type (check f.children) v cause) :
    ∃ steps last level reached g leaf,
      Located schema payload (step.wrapElement cause) steps last level reached g leaf := by
  cases h with
  | unsupported htype =>
    exact ⟨[], step, schema, payload, f, _, .here, hf, hfits, .unsupported harray hfind htype,
      rfl⟩
  | mismatch _ hrefused =>
    exact ⟨[], step, schema, payload, f, _, .here, hf, hfits, .mismatch harray hfind hrefused,
      rfl⟩
  | object hobject hv hnested =>
    subst hv
    obtain ⟨steps, last, level, reached, g, leaf, hplace⟩ := ih _ _ hnested
    refine ⟨step :: steps, last, level, reached, g, leaf,
      .into hf hfits hobject hfind hplace.leads, hplace.mem, hplace.fits, hplace.fault, ?_⟩
    rw [hplace.eq_wrap, ← hfits.label_eq]
    rfl

/-- **Every error stands at a place**, whatever the schema is. -/
theorem exists_located_of_check_eq_error {schema : Schema} {payload : Payload}
    {e : ValidationError} (h : check schema payload = .error e) :
    ∃ steps last level entries f leaf,
      Located schema payload e steps last level entries f leaf := by
  induction schema using Schema.levelInduction generalizing payload e with
  | level fields ih =>
    obtain ⟨before, f, after, rfl, -, hfield⟩ := check_eq_error_iff.mp h
    have hf : f ∈ before ++ f :: after := by simp
    have hfits : (Step.ofField f).Fits f payload := Step.fits_ofField f payload
    have hbelow : ∀ entries cause, check f.children entries = .error cause →
        ∃ steps last level reached g leaf,
          Located f.children entries cause steps last level reached g leaf :=
      fun _ _ hnested => ih f hf hnested
    cases checkField_eq_error_iff.mp hfield with
    | absent hget hrequired =>
      exact ⟨[], .ofField f, _, payload, f, _, .here, hf, hfits, .missing rfl hrequired hget,
        rfl⟩
    | atValue hget hone hfault =>
      exact exists_located_of_valueFault hf hfits hget hone hbelow hfault
    | atArray hget harray hfault =>
      cases hfault with
      | noList hkind =>
        exact ⟨[], .ofField f, _, payload, f, _, .here, hf, hfits,
          .noList rfl harray hget hkind, rfl⟩
      | empty hv hrequired =>
        subst hv
        exact ⟨[], .ofField f, _, payload, f, _, .here, hf, hfits,
          .empty rfl hrequired harray hget, rfl⟩
      | atElement hv _ helement =>
        subst hv
        obtain ⟨hfits, hfind⟩ := Step.fits_ofElement harray hget
        exact exists_located_of_valueFault hf hfits hfind harray hbelow
          (checkValue_eq_error_iff.mp helement)

/-- The first step of the place of an error is written as something, if the schema has no
empty label at its root. -/
theorem Located.render_first_ne_empty {schema level : Schema} {payload entries : Payload}
    {e leaf : ValidationError} {steps : List Step} {last : Step} {f : Field}
    (h : Located schema payload e steps last level entries f leaf)
    (hschema : ∀ g ∈ schema, g.label ≠ "") (first : Step)
    (hfirst : (steps ++ [last]).head? = some first) : first.render ≠ "" :=
  h.leads.render_first_ne_empty hschema h.mem h.fits first hfirst

/-- **The error of a payload points at the offending place.** If a schema has passed its own
check under some ceiling, and a payload fails against it, there are steps that can be
followed to a field of a level of the schema and a map in the payload, such that the path of
the error is how the steps are written, its label is the label of the last of them, and its
root cause is what is wrong there: a required field that the map lacks, a required array
that is empty, or a value or an element of a kind that does not suit the declared type. The
type of the field is recognised, so there is no fourth cause. -/
theorem check_error_points_at_place {schema : Schema} {ceiling : Int32} {payload : Payload}
    {e : ValidationError} (hschema : Schema.check schema ceiling = .ok ())
    (h : check schema payload = .error e) :
    ∃ (steps : List Step) (last : Step) (level : Schema) (entries : Payload) (f : Field),
      Leads schema payload steps level entries ∧ f ∈ level ∧ last.Fits f entries ∧
        e.fieldPath = renderPath (steps ++ [last]) ∧ e.label = last.label ∧
        f.type.isKnown = true ∧ FaultAt f last entries e.rootCause := by
  obtain ⟨steps, last, level, entries, f, leaf, hplace⟩ := exists_located_of_check_eq_error h
  have hwell := (Schema.check_eq_ok_iff_reaches.mp hschema).2
  have hlabels := (hwell schema .root).label_ne_empty
  have hleaf := hplace.fault.isWrapper_eq_false
  have hlabel : leaf.ownLabel = last.label :=
    hplace.fault.ownLabel_eq.trans hplace.fits.label_eq.symm
  have hroot : e.rootCause = leaf := by
    rw [hplace.eq_wrap, rootCause_wrap steps last hleaf]
  refine ⟨steps, last, level, entries, f, hplace.leads, hplace.mem, hplace.fits, ?_, ?_, ?_, ?_⟩
  · rw [hplace.eq_wrap, fieldPath_wrap hleaf hlabel (hplace.render_first_ne_empty hlabels)]
  · rw [ValidationError.label, hroot, hlabel]
  · exact (hwell level hplace.leads.reaches).isKnown_type f hplace.mem
  · exact hroot ▸ hplace.fault

/-- An array of objects in an array of objects, both under one label. -/
def nestedArrays : Schema :=
  [⟨"x", .object, true, true, [⟨"x", .object, true, true, [⟨"y", .int, true, false, []⟩]⟩]⟩]

/-- A payload whose second inner object lacks the required field. -/
def lackingSecond : Payload :=
  [("x", .list [.map [("x", .list [.map [("y", .integer 1)], .map []])]])]

/-- The label that inner and outer array share is written once for each of them. -/
theorem check_error_points_at_place_nestedArrays :
    let e : ValidationError := .invalidArrayElement "x" 0 (.invalidObject "x"
      (.invalidArrayElement "x" 1 (.invalidObject "x" (.missingRequiredField "y"))))
    Schema.check nestedArrays 3 = .ok () ∧ check nestedArrays lackingSecond = .error e ∧
      e.fieldPath = "x[0].x[1].y" ∧
      ∃ (steps : List Step) (last : Step) (level : Schema) (entries : Payload) (f : Field),
        Leads nestedArrays lackingSecond steps level entries ∧ f ∈ level ∧
          last.Fits f entries ∧ e.fieldPath = renderPath (steps ++ [last]) ∧
          e.label = last.label ∧ f.type.isKnown = true ∧ FaultAt f last entries e.rootCause :=
  ⟨rfl, rfl, rfl,
    check_error_points_at_place (show Schema.check nestedArrays 3 = .ok () from rfl) rfl⟩

end Payload

end ConfigSchema
