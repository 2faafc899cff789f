import ConfigSchema.Payload.Check
import ConfigSchema.Proofs.Outcome
import ConfigSchema.Proofs.Schema.Tree

/-!
# What each part of the check of a payload answers

The check of a payload is made of five functions, one inside the other: the fields of a
level in order, one field, the value of an array field, its elements in order, and one value
against a declared type. For each of them this file says when it accepts, and which faults
it stops at and where. The statements are about one level: what goes on below a field stays
the answer of the check of its children.

No later proof opens the five functions again.
-/

namespace ConfigSchema

/-- **The table of declared types and kinds**: which kinds of value a declared type accepts.
A type that is not recognised accepts none. -/
def FieldType.accepts : FieldType → Value.Kind → Bool
  | .string, .string => true
  | .int, .integer => true
  | .float, .float => true
  | .decimal, .float => true
  | .boolean, .boolean => true
  | .object, .map => true
  | _, _ => false

/-- The values of an `object` field are maps. -/
theorem FieldType.accepts_object_iff {kind : Value.Kind} :
    FieldType.object.accepts kind = true ↔ kind = .map := by
  cases kind <;> simp [accepts]

namespace Value

/-- A value of the kind of lists is a list. -/
theorem kind_eq_list_iff {v : Value} : v.kind = .list ↔ ∃ items, v = .list items := by
  cases v <;> simp [kind]

/-- A value of the kind of maps is a map. -/
theorem kind_eq_map_iff {v : Value} : v.kind = .map ↔ ∃ entries, v = .map entries := by
  cases v <;> simp [kind]

/-- A value of any other kind than that of lists has no elements. -/
theorem items?_eq_none_iff {v : Value} : v.items? = none ↔ v.kind ≠ .list := by
  cases v <;> simp [items?, kind]

end Value

namespace Payload

/-! ### One value -/

section OneValue

variable {label : String} {type : FieldType} {nested : Payload → Except ValidationError Unit}
  {v : Value} {e : ValidationError}

/-- **A value passes** exactly if the declared type accepts its kind, and the check of the
children accepts the map that an `object` field holds. -/
theorem checkValue_eq_ok_iff :
    checkValue label type nested v = .ok () ↔
      type.accepts v.kind = true ∧
        ∀ entries, type = .object → v = .map entries → nested entries = .ok () := by
  cases type <;> cases v <;> simp [checkValue, FieldType.accepts, Value.kind]

/-- A recognised type that does not accept the kind of a value is a mismatch. -/
theorem checkValue_of_refused (known : type.isKnown = true)
    (refused : type.accepts v.kind = false) :
    checkValue label type nested v = .error (.typeMismatch label type v.kind) := by
  cases type <;> cases v <;>
    simp_all [checkValue, FieldType.accepts, FieldType.isKnown, Value.kind]

/-- What a value is at fault for. -/
inductive ValueFault (label : String) (type : FieldType)
    (nested : Payload → Except ValidationError Unit) (v : Value) : ValidationError → Prop
  /-- The declared type is not recognised. -/
  | unsupported {name : String} (type_eq : type = .unknown name) :
    ValueFault label type nested v (.unsupportedFieldType label name)
  /-- The declared type is recognised, and does not accept the kind of the value. -/
  | mismatch (known : type.isKnown = true) (refused : type.accepts v.kind = false) :
    ValueFault label type nested v (.typeMismatch label type v.kind)
  /-- The map that an `object` field holds is at fault. -/
  | object {entries : Payload} {cause : ValidationError} (type_eq : type = .object)
      (v_eq : v = .map entries) (nested_eq : nested entries = .error cause) :
    ValueFault label type nested v (.invalidObject label cause)

/-- **A value is refused** with exactly these faults. -/
theorem checkValue_eq_error_iff :
    checkValue label type nested v = .error e ↔ ValueFault label type nested v e := by
  constructor
  · intro h
    cases hknown : type.isKnown with
    | false =>
      obtain ⟨name, rfl⟩ := FieldType.isKnown_eq_false_iff.mp hknown
      cases h
      exact .unsupported rfl
    | true =>
      cases haccepts : type.accepts v.kind with
      | false =>
        rw [checkValue_of_refused hknown haccepts] at h
        cases h
        exact .mismatch hknown haccepts
      | true =>
        -- the kind is accepted, so only the children of an `object` field can be at fault
        by_cases hobject : type = .object
        · subst hobject
          obtain ⟨entries, rfl⟩ :=
            Value.kind_eq_map_iff.mp (FieldType.accepts_object_iff.mp haccepts)
          obtain ⟨cause, hcause, rfl⟩ := Outcome.mapError_eq_error_iff.mp h
          exact .object rfl rfl hcause
        · have hok : checkValue label type nested v = .ok () :=
            checkValue_eq_ok_iff.mpr ⟨haccepts, fun _ ho => absurd ho hobject⟩
          rw [hok] at h
          cases h
  · rintro (⟨rfl⟩ | ⟨hknown, hrefused⟩ | ⟨rfl, rfl, hnested⟩)
    · rfl
    · exact checkValue_of_refused hknown hrefused
    · exact Outcome.mapError_eq_error_iff.mpr ⟨_, hnested, rfl⟩

end OneValue

/-! ### Arrays -/

section Arrays

variable {label : String} {type : FieldType} {required : Bool}
  {element : Value → Except ValidationError Unit} {v : Value} {items : List Value}
  {e : ValidationError}

/-- The elements of an array pass exactly if each of them does. -/
theorem checkElements_eq_ok_iff {index : Nat} :
    checkElements label element index items = .ok () ↔ ∀ w ∈ items, element w = .ok () := by
  induction items generalizing index with
  | nil => simp [checkElements]
  | cons w rest ih =>
    rw [checkElements, Outcome.check_bind_eq_ok_iff, Outcome.mapError_eq_ok_iff, ih,
      List.forall_mem_cons]

/-- **The elements of an array are refused at the first one that is at fault**: all before
it pass, and its fault is wrapped with its index. -/
theorem checkElements_eq_error_iff {index : Nat} :
    checkElements label element index items = .error e ↔
      ∃ before w after cause, items = before ++ w :: after ∧
        (∀ u ∈ before, element u = .ok ()) ∧ element w = .error cause ∧
          e = .invalidArrayElement label (index + before.length) cause := by
  induction items generalizing index with
  | nil => simp [checkElements]
  | cons w rest ih =>
    rw [checkElements, Outcome.check_bind_eq_error_iff]
    simp only [Outcome.mapError_eq_ok_iff, Outcome.mapError_eq_error_iff, ih]
    constructor
    · rintro (⟨cause, hw, rfl⟩ | ⟨hw, before, u, after, cause, rfl, hbefore, hu, rfl⟩)
      · exact ⟨[], w, rest, cause, rfl, by simp, hw, rfl⟩
      · refine ⟨w :: before, u, after, cause, rfl, ?_, hu, ?_⟩
        · exact List.forall_mem_cons.mpr ⟨hw, hbefore⟩
        · rw [List.length_cons, Nat.add_assoc, Nat.add_comm 1]
    · rintro ⟨before, u, after, cause, hitems, hbefore, hu, rfl⟩
      cases before with
      | nil =>
        obtain ⟨rfl, rfl⟩ := List.cons.inj hitems
        exact Or.inl ⟨cause, hu, rfl⟩
      | cons w' before =>
        obtain ⟨rfl, rfl⟩ := List.cons.inj hitems
        obtain ⟨hw, hbefore⟩ := List.forall_mem_cons.mp hbefore
        refine Or.inr ⟨hw, before, u, after, cause, rfl, hbefore, hu, ?_⟩
        rw [List.length_cons, Nat.add_assoc, Nat.add_comm 1]

/-- **The value of an array field passes** exactly if it is a list of arbitrary values, with
elements if the field is required, and each element passes. -/
theorem checkArray_eq_ok_iff :
    checkArray label type required element v = .ok () ↔
      ∃ items, v = .list items ∧ (required = true → items ≠ []) ∧
        ∀ w ∈ items, element w = .ok () := by
  cases hv : v.items? with
  | none =>
    have hkind := Value.items?_eq_none_iff.mp hv
    have hlist : ∀ items, v ≠ .list items := fun items h =>
      hkind (Value.kind_eq_list_iff.mpr ⟨items, h⟩)
    simp [checkArray, hv, hlist]
  | some items =>
    obtain rfl := Value.items?_eq_some_iff.mp hv
    cases items with
    | nil => cases required <;> simp [checkArray, Value.items?]
    | cons w rest => simp [checkArray, Value.items?, checkElements_eq_ok_iff]

/-- What the value of an array field is at fault for. -/
inductive ArrayFault (label : String) (type : FieldType) (required : Bool)
    (element : Value → Except ValidationError Unit) (v : Value) : ValidationError → Prop
  /-- The value is no list of arbitrary values. -/
  | noList (kind_ne : v.kind ≠ .list) :
    ArrayFault label type required element v (.typeMismatch label type v.kind)
  /-- The list has no elements, and the field is required. -/
  | empty (v_eq : v = .list []) (isRequired : required = true) :
    ArrayFault label type required element v (.emptyRequiredArray label)
  /-- An element is at fault, and all before it pass. -/
  | atElement {before after : List Value} {w : Value} {cause : ValidationError}
      (v_eq : v = .list (before ++ w :: after)) (before_ok : ∀ u ∈ before, element u = .ok ())
      (element_eq : element w = .error cause) :
    ArrayFault label type required element v (.invalidArrayElement label before.length cause)

/-- **The value of an array field is refused** with exactly these faults. -/
theorem checkArray_eq_error_iff :
    checkArray label type required element v = .error e ↔
      ArrayFault label type required element v e := by
  constructor
  · intro h
    cases hv : v.items? with
    | none =>
      simp only [checkArray, hv, Except.error.injEq] at h
      exact h ▸ .noList (Value.items?_eq_none_iff.mp hv)
    | some items =>
      obtain rfl := Value.items?_eq_some_iff.mp hv
      cases items with
      | nil =>
        cases required
        · cases h
        · cases h
          exact .empty rfl rfl
      | cons first rest =>
        obtain ⟨before, w, after, cause, hitems, hbefore, hw, rfl⟩ :=
          checkElements_eq_error_iff.mp h
        rw [Nat.zero_add]
        exact .atElement (congrArg Value.list hitems) hbefore hw
  · rintro (hkind | ⟨rfl, rfl⟩ | ⟨rfl, hbefore, hw⟩)
    · rw [checkArray, Value.items?_eq_none_iff.mpr hkind]
    · rfl
    · rename_i before after w cause
      have helements : checkElements label element 0 (before ++ w :: after) =
          .error (.invalidArrayElement label before.length cause) :=
        checkElements_eq_error_iff.mpr
          ⟨before, w, after, cause, rfl, hbefore, hw, by rw [Nat.zero_add]⟩
      cases before with
      | nil => exact helements
      | cons u before => exact helements

end Arrays

/-! ### Fields -/

/-- One value, or one element of an array, against a field. -/
def checkOne (f : Field) (v : Value) : Except ValidationError Unit :=
  checkValue f.label f.type (check f.children) v

variable {f : Field} {payload : Payload} {e : ValidationError}

/-- The check of a field in terms of its parts. -/
theorem checkField_eq (f : Field) (payload : Payload) :
    checkField f payload =
      match Keyed.get? f.label payload with
      | none => if f.required then .error (.missingRequiredField f.label) else .ok ()
      | some v =>
        if f.isArray then checkArray f.label f.type f.required (checkOne f) v
        else checkOne f v := by
  obtain ⟨label, type, required, isArray, children⟩ := f
  rw [checkField]
  rfl

/-- **A field passes** in one of three ways: it is absent and not required, it holds one
value that passes, or it is an array and holds a list whose elements pass. -/
theorem checkField_eq_ok_iff :
    checkField f payload = .ok () ↔
      (Keyed.get? f.label payload = none ∧ f.required = false) ∨
      (∃ v, Keyed.get? f.label payload = some v ∧ f.isArray = false ∧ checkOne f v = .ok ()) ∨
      ∃ items, Keyed.get? f.label payload = some (.list items) ∧ f.isArray = true ∧
        (f.required = true → items ≠ []) ∧ ∀ w ∈ items, checkOne f w = .ok () := by
  rw [checkField_eq]
  cases Keyed.get? f.label payload with
  | none => simp
  | some v =>
    cases f.isArray with
    | false => simp
    | true => simp [checkArray_eq_ok_iff]

/-- What a payload is at fault for at one field. -/
inductive FieldFault (f : Field) (payload : Payload) : ValidationError → Prop
  /-- The field is required and absent. -/
  | absent (get_eq : Keyed.get? f.label payload = none) (isRequired : f.required = true) :
    FieldFault f payload (.missingRequiredField f.label)
  /-- The field is no array, and its value is at fault. -/
  | atValue {v : Value} {e : ValidationError} (get_eq : Keyed.get? f.label payload = some v)
      (isOne : f.isArray = false)
      (fault : ValueFault f.label f.type (check f.children) v e) :
    FieldFault f payload e
  /-- The field is an array, and its value is at fault. -/
  | atArray {v : Value} {e : ValidationError} (get_eq : Keyed.get? f.label payload = some v)
      (isArray : f.isArray = true)
      (fault : ArrayFault f.label f.type f.required (checkOne f) v e) :
    FieldFault f payload e

/-- **A field is refused** with exactly these faults. -/
theorem checkField_eq_error_iff :
    checkField f payload = .error e ↔ FieldFault f payload e := by
  rw [checkField_eq]
  constructor
  · intro h
    cases hget : Keyed.get? f.label payload with
    | none =>
      rw [hget] at h
      cases hrequired : f.required with
      | false => simp [hrequired] at h
      | true =>
        simp only [hrequired, if_true, Except.error.injEq] at h
        exact h ▸ .absent hget hrequired
    | some v =>
      simp only [hget] at h
      cases harray : f.isArray with
      | false =>
        rw [harray] at h
        exact .atValue hget harray (checkValue_eq_error_iff.mp h)
      | true =>
        rw [harray] at h
        exact .atArray hget harray (checkArray_eq_error_iff.mp h)
  · rintro (⟨hget, hrequired⟩ | ⟨hget, harray, hfault⟩ | ⟨hget, harray, hfault⟩)
    · simp [hget, hrequired]
    · simp only [hget, harray]
      exact checkValue_eq_error_iff.mpr hfault
    · simp only [hget, harray]
      exact checkArray_eq_error_iff.mpr hfault

/-! ### Levels -/

/-- **A payload passes** exactly if every field of the schema does. -/
theorem check_eq_ok_iff {schema : Schema} {payload : Payload} :
    check schema payload = .ok () ↔ ∀ f ∈ schema, checkField f payload = .ok () := by
  induction schema with
  | nil => simp [check, checkFields]
  | cons f fs ih =>
    rw [check, checkFields, Outcome.check_bind_eq_ok_iff, List.forall_mem_cons, ← ih, check]

/-- **A payload is refused at the first field that is at fault**: all fields before it
pass. -/
theorem check_eq_error_iff {schema : Schema} {payload : Payload} {e : ValidationError} :
    check schema payload = .error e ↔
      ∃ before f after, schema = before ++ f :: after ∧
        (∀ g ∈ before, checkField g payload = .ok ()) ∧ checkField f payload = .error e := by
  induction schema with
  | nil => simp [check, checkFields]
  | cons f fs ih =>
    rw [check] at ih
    rw [check, checkFields, Outcome.check_bind_eq_error_iff, ih]
    constructor
    · rintro (hf | ⟨hf, before, g, after, rfl, hbefore, hg⟩)
      · exact ⟨[], f, fs, rfl, by simp, hf⟩
      · exact ⟨f :: before, g, after, rfl, List.forall_mem_cons.mpr ⟨hf, hbefore⟩, hg⟩
    · rintro ⟨before, g, after, hschema, hbefore, hg⟩
      cases before with
      | nil =>
        obtain ⟨rfl, rfl⟩ := List.cons.inj hschema
        exact Or.inl hg
      | cons f' before =>
        obtain ⟨rfl, rfl⟩ := List.cons.inj hschema
        obtain ⟨hf, hbefore⟩ := List.forall_mem_cons.mp hbefore
        exact Or.inr ⟨hf, before, g, after, rfl, hbefore, hg⟩

end Payload

end ConfigSchema
