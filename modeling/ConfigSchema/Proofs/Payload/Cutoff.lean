import ConfigSchema.Proofs.Payload.Verdict

/-!
# The check of a payload, cut off

The check of a payload goes one level down wherever an `object` field meets a map. Here is the
same check with a limit to the levels that are open at one time, the first one counted: where
one level more would have to be opened it is cut off, and has no answer
(`ConfigSchema.Payload.Cutoff.check`).

The levels that are opened are levels of the schema, however deep the payload is. So a limit
above the depth of the schema is never met, and the check that is cut off there is the check
itself (`ConfigSchema.Payload.Cutoff.check_eq_some`).
-/

namespace ConfigSchema

namespace Payload.Cutoff

/-! ### The check with a limit -/

/-- The answer of a check, or none if it has been cut off. -/
abbrev Answer := Option (Except ValidationError Unit)

/-- Checks one value against a declared type; `nested` opens the level of the children. -/
def checkValue (label : String) (type : FieldType) (nested : Payload → Answer) (v : Value) :
    Answer :=
  match type, v with
  | .string, .string _ => some (.ok ())
  | .int, .integer _ => some (.ok ())
  | .float, .float _ => some (.ok ())
  | .decimal, .float _ => some (.ok ())
  | .boolean, .boolean _ => some (.ok ())
  | .object, .map entries => do return (← nested entries).mapError (.invalidObject label)
  | .unknown name, _ => some (.error (.unsupportedFieldType label name))
  | type, v => some (.error (.typeMismatch label type v.kind))

/-- Checks the elements of an array in order, from an index on. -/
def checkElements (label : String) (element : Value → Answer) : Nat → List Value → Answer
  | _, [] => some (.ok ())
  | index, v :: rest => do
    match ← element v with
    | .ok () => checkElements label element (index + 1) rest
    | .error e => some (.error (.invalidArrayElement label index e))

/-- Checks the value of an array field. -/
def checkArray (label : String) (type : FieldType) (required : Bool) (element : Value → Answer)
    (v : Value) : Answer :=
  match v.items? with
  | none => some (.error (.typeMismatch label type v.kind))
  | some [] => some (if required then .error (.emptyRequiredArray label) else .ok ())
  | some (first :: rest) => checkElements label element 0 (first :: rest)

/-- Checks what a payload holds for one field; `nested` opens a level below. -/
def checkField (nested : Schema → Payload → Answer) (f : Field) (payload : Payload) : Answer :=
  match Keyed.get? f.label payload with
  | none => some (if f.required then .error (.missingRequiredField f.label) else .ok ())
  | some v =>
    let element := checkValue f.label f.type (nested f.children)
    if f.isArray then checkArray f.label f.type f.required element v else element v

/-- Checks a payload against the fields of a level, in order. -/
def checkFields (nested : Schema → Payload → Answer) : List Field → Payload → Answer
  | [], _ => some (.ok ())
  | f :: fs, payload => do
    match ← checkField nested f payload with
    | .ok () => checkFields nested fs payload
    | .error e => some (.error e)

/-- **The check of a payload with at most the given number of levels open at one time.** The
level that is checked is open itself, so a limit of zero cuts off everything. -/
def check : Nat → Schema → Payload → Answer
  | 0, _, _ => none
  | limit + 1, schema, payload => checkFields (check limit) schema payload

/-! ### A limit that is not met -/

section Agreement

variable {label : String} {type : FieldType} {required : Bool}
  {nested : Payload → Except ValidationError Unit} {nested' : Payload → Answer}
  {element : Value → Except ValidationError Unit} {element' : Value → Answer} {v : Value}

/-- A value is checked alike if the map of an `object` field is. -/
theorem checkValue_eq_some
    (h : ∀ entries, type = .object → nested' entries = some (nested entries)) :
    checkValue label type nested' v = some (Payload.checkValue label type nested v) := by
  cases type with
  | object =>
    cases v with
    | map entries =>
      show (nested' entries >>= fun answer => _) = _
      rw [h entries rfl]
      rfl
    | _ => rfl
  | _ => cases v <;> rfl

/-- The elements of an array are checked alike if each of them is. -/
theorem checkElements_eq_some (h : ∀ w, element' w = some (element w)) (index : Nat)
    (items : List Value) :
    checkElements label element' index items =
      some (Payload.checkElements label element index items) := by
  induction items generalizing index with
  | nil => rfl
  | cons w rest ih =>
    rw [checkElements, Payload.checkElements, h w]
    cases element w with
    | error e => rfl
    | ok u => exact ih (index + 1)

/-- The value of an array field is checked alike if its elements are. -/
theorem checkArray_eq_some (h : ∀ w, element' w = some (element w)) :
    checkArray label type required element' v =
      some (Payload.checkArray label type required element v) := by
  rw [checkArray, Payload.checkArray]
  rcases v.items? with _ | _ | ⟨first, rest⟩
  · rfl
  · rfl
  · exact checkElements_eq_some h 0 (first :: rest)

variable {below : Schema → Payload → Answer} {f : Field} {payload : Payload}

/-- A field is checked alike if the children of an `object` field are. -/
theorem checkField_eq_some
    (h : ∀ entries, f.type = .object →
      below f.children entries = some (Payload.check f.children entries)) :
    checkField below f payload = some (Payload.checkField f payload) := by
  have hone : ∀ w, checkValue f.label f.type (below f.children) w = some (checkOne f w) :=
    fun w => checkValue_eq_some h
  rw [checkField, checkField_eq]
  cases Keyed.get? f.label payload with
  | none => rfl
  | some v =>
    cases f.isArray with
    | false => exact hone v
    | true => exact checkArray_eq_some hone

/-- The fields of a level are checked alike if each of them is. -/
theorem checkFields_eq_some {schema : Schema}
    (h : ∀ f ∈ schema, checkField below f payload = some (Payload.checkField f payload)) :
    checkFields below schema payload = some (Payload.check schema payload) := by
  induction schema with
  | nil => rfl
  | cons f fs ih =>
    obtain ⟨hf, hfs⟩ := List.forall_mem_cons.mp h
    rw [checkFields, hf, Payload.check, Payload.checkFields]
    cases Payload.checkField f payload with
    | error e => rfl
    | ok u => exact ih hfs

end Agreement

/-- **A limit above the depth of the schema is not met**, whatever the payload is: the check
that is cut off there answers, and its answer is that of the check. -/
theorem check_eq_some {schema : Schema} {limit : Nat} (h : Schema.depth schema < limit)
    (payload : Payload) : check limit schema payload = some (Payload.check schema payload) := by
  induction schema using Schema.levelInduction generalizing limit payload with
  | level fields ih =>
    obtain ⟨limit, rfl⟩ : ∃ m, limit = m + 1 := ⟨limit - 1, by omega⟩
    refine checkFields_eq_some fun f hf => checkField_eq_some fun entries hobject => ?_
    -- one level of the schema pays for one level of the limit
    have hdepth := Schema.depth_le_iff.mp (Nat.le_refl (Schema.depth fields)) f hf hobject
    exact ih f hf (by omega) entries

-- a limit that is met: the second level is not opened
example : check 1 [⟨"a", .object, true, false, []⟩] [("a", .map [])] = none := rfl

end Payload.Cutoff

end ConfigSchema
