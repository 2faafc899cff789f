import ConfigSchema.Proofs.Payload.Verdict

/-!
# All faults of a payload

The check of a payload stops at the first fault, at each of three places: in the fields of a
level, in the elements of an array, and below an `object` field. Here is a reader that stops at
none of them and lists whatever is wrong (`ConfigSchema.Payload.allFaults`): the faults of every
declared field, in the order of declaration; of every element of an array, in the order of the
indices; and of everything below an `object` field, in its place and with the wrappers that the
check would give it.

The check is the head of this list: it accepts exactly the payloads without a fault, and otherwise
returns the first one (`ConfigSchema.Payload.check_eq_ofFaults`). What comes first can also be
said from the inside (`ConfigSchema.Payload.First`): of a level the field before which no field
has any fault, however deep; of an array the element before which no element has one. So an index
that is reported is the least index of an element at fault. All of this holds of every schema,
checked or not (`ConfigSchema.Payload.check_is_head_of_allFaults`).
-/

namespace ConfigSchema

namespace Payload

/-! ### The list of faults -/

/-- The faults of one value, or of one element of an array; `nested` lists those of a map against
the children of the field. -/
def faultsOfValue (label : String) (type : FieldType) (nested : Payload → List ValidationError)
    (v : Value) : List ValidationError :=
  match type with
  | .unknown name => [.unsupportedFieldType label name]
  | .object =>
    match v.entries? with
    | some entries => (nested entries).map (.invalidObject label)
    | none => [.typeMismatch label .object v.kind]
  | type => if type.accepts v.kind then [] else [.typeMismatch label type v.kind]

/-- The faults of the elements of an array, from an index on, each with its index. -/
def faultsOfElements (label : String) (element : Value → List ValidationError) (index : Nat)
    (items : List Value) : List ValidationError :=
  (items.zipIdx index).flatMap fun entry =>
    (element entry.1).map (.invalidArrayElement label entry.2)

/-- The faults of the value of an array field. -/
def faultsOfArray (label : String) (type : FieldType) (required : Bool)
    (element : Value → List ValidationError) (v : Value) : List ValidationError :=
  match v.items? with
  | none => [.typeMismatch label type v.kind]
  | some items =>
    if required && items.isEmpty then [.emptyRequiredArray label]
    else faultsOfElements label element 0 items

mutual

/-- The faults of what a payload holds for one field. -/
def faultsOfField : Field → Payload → List ValidationError
  | ⟨label, type, required, isArray, children⟩, payload =>
    match Keyed.get? label payload with
    | none => if required then [.missingRequiredField label] else []
    | some v =>
      if isArray then
        faultsOfArray label type required (faultsOfValue label type (allFaults children)) v
      else faultsOfValue label type (allFaults children) v

/-- **All faults of a payload**, field by field. -/
def allFaults : List Field → Payload → List ValidationError
  | [], _ => []
  | f :: fs, payload => faultsOfField f payload ++ allFaults fs payload

end

/-! ### The check stops at the first of them -/

section FirstFault

variable {label : String} {type : FieldType} {required : Bool}
  {nested : Payload → Except ValidationError Unit} {nested' : Payload → List ValidationError}
  {element : Value → Except ValidationError Unit} {element' : Value → List ValidationError}
  {v : Value} {items : List Value}

/-- A value is judged by its first fault if the map of an `object` field is. -/
theorem checkValue_eq_ofFaults
    (h : ∀ entries, type = .object → nested entries = Outcome.ofFaults (nested' entries)) :
    checkValue label type nested v = Outcome.ofFaults (faultsOfValue label type nested' v) := by
  cases type with
  | unknown name => rfl
  | object =>
    cases v with
    | map entries =>
      show (nested entries).mapError _ = Outcome.ofFaults ((nested' entries).map _)
      rw [h entries rfl, Outcome.ofFaults_map]
    | _ => rfl
  | _ => cases v <;> rfl

/-- The elements of an array are judged by the first fault of any of them, if each of them is
judged by its own. -/
theorem checkElements_eq_ofFaults (h : ∀ w, element w = Outcome.ofFaults (element' w))
    (index : Nat) :
    checkElements label element index items =
      Outcome.ofFaults (faultsOfElements label element' index items) := by
  induction items generalizing index with
  | nil => rfl
  | cons w rest ih =>
    have hsplit : faultsOfElements label element' index (w :: rest) =
        (element' w).map (.invalidArrayElement label index) ++
          faultsOfElements label element' (index + 1) rest := by
      rw [faultsOfElements, List.zipIdx_cons, List.flatMap_cons]
      rfl
    rw [checkElements, hsplit, Outcome.ofFaults_append, Outcome.ofFaults_map, h w, ih]

/-- The value of an array field is judged by its first fault if its elements are. -/
theorem checkArray_eq_ofFaults (h : ∀ w, element w = Outcome.ofFaults (element' w)) :
    checkArray label type required element v =
      Outcome.ofFaults (faultsOfArray label type required element' v) := by
  rw [checkArray, faultsOfArray]
  rcases v.items? with _ | _ | ⟨first, rest⟩
  · rfl
  · cases required <;> rfl
  · have helements : checkElements label element 0 (first :: rest) =
        Outcome.ofFaults (faultsOfElements label element' 0 (first :: rest)) :=
      checkElements_eq_ofFaults h 0
    simpa using helements

end FirstFault

/-- The faults of one value, or of one element of an array, against a field. -/
def faultsOfOne (f : Field) (v : Value) : List ValidationError :=
  faultsOfValue f.label f.type (allFaults f.children) v

variable {f : Field} {schema : Schema} {payload : Payload} {v : Value} {e : ValidationError}

/-- The faults of a field in terms of its parts. -/
theorem faultsOfField_eq (f : Field) (payload : Payload) :
    faultsOfField f payload =
      match Keyed.get? f.label payload with
      | none => if f.required then [.missingRequiredField f.label] else []
      | some v =>
        if f.isArray then faultsOfArray f.label f.type f.required (faultsOfOne f) v
        else faultsOfOne f v := by
  obtain ⟨label, type, required, isArray, children⟩ := f
  rw [faultsOfField]
  rfl

/-- One value is judged by its first fault if the children of the field are. -/
theorem checkOne_eq_ofFaults
    (h : ∀ entries, check f.children entries = Outcome.ofFaults (allFaults f.children entries))
    (v : Value) : checkOne f v = Outcome.ofFaults (faultsOfOne f v) :=
  checkValue_eq_ofFaults fun entries _ => h entries

/-- A field is judged by its first fault if its children are. -/
theorem checkField_eq_ofFaults_of_children
    (h : ∀ entries, check f.children entries = Outcome.ofFaults (allFaults f.children entries)) :
    checkField f payload = Outcome.ofFaults (faultsOfField f payload) := by
  have hone := checkOne_eq_ofFaults h
  rw [checkField_eq, faultsOfField_eq]
  rcases Keyed.get? f.label payload with _ | v
  · cases f.required <;> rfl
  · cases f.isArray with
    | false => exact hone v
    | true => exact checkArray_eq_ofFaults hone

/-- **The check of a payload returns the first of all faults**, and accepts where there is
none. -/
theorem check_eq_ofFaults (schema : Schema) (payload : Payload) :
    check schema payload = Outcome.ofFaults (allFaults schema payload) := by
  induction schema using Schema.levelInduction generalizing payload with
  | level fields ih =>
    have hfields : ∀ f ∈ fields,
        checkField f payload = Outcome.ofFaults (faultsOfField f payload) :=
      fun f hf => checkField_eq_ofFaults_of_children (ih f hf)
    clear ih
    induction fields with
    | nil => rfl
    | cons f fs ih =>
      obtain ⟨hf, hfs⟩ := List.forall_mem_cons.mp hfields
      have hrest : checkFields fs payload = Outcome.ofFaults (allFaults fs payload) := ih hfs
      rw [check, checkFields, allFaults, Outcome.ofFaults_append, hf, hrest]

/-! ### What comes first -/

mutual

/-- **The first fault of a payload**: it is the first one of a field before which no field has any
fault. -/
inductive First : Schema → Payload → ValidationError → Prop
  /-- The fields before have no fault, at any depth. -/
  | field {before after : List Field} {f : Field} {payload : Payload} {e : ValidationError}
      (before_none : allFaults before payload = []) (fault : FirstOfField f payload e) :
    First (before ++ f :: after) payload e

/-- The first fault of a field. -/
inductive FirstOfField : Field → Payload → ValidationError → Prop
  /-- The field is required and absent. -/
  | absent {f : Field} {payload : Payload} (get_eq : Keyed.get? f.label payload = none)
      (isRequired : f.required = true) : FirstOfField f payload (.missingRequiredField f.label)
  /-- The field is no array, and its value is at fault. -/
  | atValue {f : Field} {payload : Payload} {v : Value} {e : ValidationError}
      (get_eq : Keyed.get? f.label payload = some v) (isOne : f.isArray = false)
      (fault : FirstOfOne f v e) : FirstOfField f payload e
  /-- The value of an array field is no list of arbitrary values. -/
  | noList {f : Field} {payload : Payload} {v : Value}
      (get_eq : Keyed.get? f.label payload = some v) (isArray : f.isArray = true)
      (kind_ne : v.kind ≠ .list) :
    FirstOfField f payload (.typeMismatch f.label f.type v.kind)
  /-- A required array has no elements. -/
  | empty {f : Field} {payload : Payload}
      (get_eq : Keyed.get? f.label payload = some (.list [])) (isArray : f.isArray = true)
      (isRequired : f.required = true) :
    FirstOfField f payload (.emptyRequiredArray f.label)
  /-- An element is at fault, and the elements before it have no fault, at any depth. -/
  | atElement {f : Field} {payload : Payload} {before after : List Value} {w : Value}
      {cause : ValidationError}
      (get_eq : Keyed.get? f.label payload = some (.list (before ++ w :: after)))
      (isArray : f.isArray = true) (before_none : ∀ u ∈ before, faultsOfOne f u = [])
      (fault : FirstOfOne f w cause) :
    FirstOfField f payload (.invalidArrayElement f.label before.length cause)

/-- The first fault of one value, or of one element of an array, against a field. -/
inductive FirstOfOne : Field → Value → ValidationError → Prop
  /-- The declared type is not recognised. -/
  | unsupported {f : Field} {v : Value} {name : String} (type_eq : f.type = .unknown name) :
    FirstOfOne f v (.unsupportedFieldType f.label name)
  /-- The declared type is recognised, and does not accept the kind of the value. -/
  | mismatch {f : Field} {v : Value} (known : f.type.isKnown = true)
      (refused : f.type.accepts v.kind = false) :
    FirstOfOne f v (.typeMismatch f.label f.type v.kind)
  /-- It is the first fault of the map that an `object` field holds. -/
  | object {f : Field} {entries : Payload} {cause : ValidationError} (type_eq : f.type = .object)
      (fault : First f.children entries cause) :
    FirstOfOne f (.map entries) (.invalidObject f.label cause)

end

section Children

variable (hchildren : ∀ entries cause,
  check f.children entries = .error cause ↔ First f.children entries cause)

include hchildren

/-- The check of one value stops at its first fault, if the check of the children does. -/
theorem checkOne_eq_error_iff_first : checkOne f v = .error e ↔ FirstOfOne f v e := by
  rw [checkOne, checkValue_eq_error_iff]
  constructor
  · rintro (htype | ⟨hknown, hrefused⟩ | ⟨htype, rfl, hcause⟩)
    · exact .unsupported htype
    · exact .mismatch hknown hrefused
    · exact .object htype ((hchildren _ _).mp hcause)
  · rintro (htype | ⟨hknown, hrefused⟩ | ⟨htype, hcause⟩)
    · exact .unsupported htype
    · exact .mismatch hknown hrefused
    · exact .object htype rfl ((hchildren _ _).mpr hcause)

/-- The check of a field stops at its first fault, if the check of the children does. -/
theorem checkField_eq_error_iff_first :
    checkField f payload = .error e ↔ FirstOfField f payload e := by
  have hnone : ∀ u, checkOne f u = .ok () ↔ faultsOfOne f u = [] := fun u => by
    rw [checkOne_eq_ofFaults (check_eq_ofFaults f.children), Outcome.ofFaults_eq_ok_iff]
  rw [checkField_eq_error_iff]
  constructor
  · rintro (⟨hget, hrequired⟩ | ⟨hget, hone, hvalue⟩ | ⟨hget, harray, hfault⟩)
    · exact .absent hget hrequired
    · have hfirst := (checkOne_eq_error_iff_first hchildren).mp (checkValue_eq_error_iff.mpr hvalue)
      exact .atValue hget hone hfirst
    · rcases hfault with hkind | ⟨rfl, hrequired⟩ | ⟨rfl, hbefore, hw⟩
      · exact .noList hget harray hkind
      · exact .empty hget harray hrequired
      · exact .atElement hget harray (fun u hu => (hnone u).mp (hbefore u hu))
          ((checkOne_eq_error_iff_first hchildren).mp hw)
  · rintro (⟨hget, hrequired⟩ | ⟨hget, hone, hfirst⟩ | ⟨hget, harray, hkind⟩ |
      ⟨hget, harray, hrequired⟩ | ⟨hget, harray, hbefore, hw⟩)
    · exact .absent hget hrequired
    · have hvalue := (checkOne_eq_error_iff_first hchildren).mpr hfirst
      exact .atValue hget hone (checkValue_eq_error_iff.mp hvalue)
    · exact .atArray hget harray (.noList hkind)
    · exact .atArray hget harray (.empty rfl hrequired)
    · exact .atArray hget harray (.atElement rfl (fun u hu => (hnone u).mpr (hbefore u hu))
        ((checkOne_eq_error_iff_first hchildren).mpr hw))

end Children

/-- **The check of a payload stops at its first fault.** -/
theorem check_eq_error_iff_first : check schema payload = .error e ↔ First schema payload e := by
  induction schema using Schema.levelInduction generalizing payload e with
  | level fields ih =>
    have hfield : ∀ f ∈ fields, ∀ payload e,
        checkField f payload = .error e ↔ FirstOfField f payload e :=
      fun f hf payload e => checkField_eq_error_iff_first fun entries cause => ih f hf
    have hnone : ∀ before : List Field,
        (∀ g ∈ before, checkField g payload = .ok ()) ↔ allFaults before payload = [] :=
      fun before => by
        rw [← check_eq_ok_iff, check_eq_ofFaults, Outcome.ofFaults_eq_ok_iff]
    rw [check_eq_error_iff]
    constructor
    · rintro ⟨before, f, after, rfl, hbefore, hf⟩
      exact .field ((hnone before).mp hbefore) ((hfield f (by simp) payload e).mp hf)
    · rintro ⟨hbefore, hf⟩
      exact ⟨_, _, _, rfl, (hnone _).mpr hbefore, (hfield _ (by simp) payload e).mpr hf⟩

/-! ### The main statement -/

/-- **The check of a payload is the head of the list of all its faults**, for every schema,
checked or not, and every payload: it accepts exactly if the list is empty, and otherwise returns
its first entry, which is the whole error with its wrappers. And this entry is what comes first:
at every level a field before which no field has a fault at any depth, and in every array the
element with the least index of those at fault. -/
theorem check_is_head_of_allFaults (schema : Schema) (payload : Payload) :
    (check schema payload = .ok () ↔ allFaults schema payload = []) ∧
      (∀ e, check schema payload = .error e ↔ (allFaults schema payload).head? = some e) ∧
      ∀ e, check schema payload = .error e ↔ First schema payload e := by
  refine ⟨?_, fun e => ?_, fun e => check_eq_error_iff_first⟩
  · rw [check_eq_ofFaults, Outcome.ofFaults_eq_ok_iff]
  · rw [check_eq_ofFaults, Outcome.ofFaults_eq_error_iff]

-- two of three elements and a later field are at fault, one of the elements twice
example :
    let schema : Schema := [⟨"rows", .object, true, true,
      [⟨"key", .int, true, false, []⟩, ⟨"cell", .unknown "t", false, false, []⟩]⟩,
      ⟨"name", .string, true, false, []⟩]
    let row (e : ValidationError) (i : Nat) : ValidationError :=
      .invalidArrayElement "rows" i (.invalidObject "rows" e)
    allFaults schema [("rows", .list [.map [("key", .integer 1)],
        .map [("cell", .null), ("key", .boolean true)], .map []])] =
      [row (.typeMismatch "key" .int .boolean) 1, row (.unsupportedFieldType "cell" "t") 1,
        row (.missingRequiredField "key") 2, .missingRequiredField "name"] := rfl

end Payload

end ConfigSchema
