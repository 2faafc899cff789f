import ConfigSchema.Proofs.Schema.Levels

/-!
# What the check of a schema is stopped by

The check of a schema stops at the first field of a level that is at fault. This file says
which field that is and what it is at fault for: the fields before it pass
(`ConfigSchema.Schema.Pass`), and the field is refused for its label, for its type, or for its
children (`ConfigSchema.Schema.FieldFault`). Both answers of the check at one level are then
known (`ConfigSchema.Schema.check_eq_ok_iff`, `ConfigSchema.Schema.check_eq_error_iff`), and
no later proof opens the walk over the fields again.
-/

namespace ConfigSchema

namespace Schema

variable {f : Field} {fields : List Field} {seen : List String} {remaining ceiling : Int32}
  {e : SchemaError}

/-- **What a field is at fault for on its own**, given the labels of the fields before it: its
label comes before its type. -/
inductive OwnFault (seen : List String) (f : Field) : SchemaError → Prop
  /-- The label is empty. -/
  | emptyLabel (label_eq : f.label = "") : OwnFault seen f .emptyLabel
  /-- A field before it has the label. -/
  | duplicate (label_ne : f.label ≠ "") (mem : f.label ∈ seen) :
    OwnFault seen f (.duplicateField f.label)
  /-- The type is not recognised. -/
  | unknownType {name : String} (label_ne : f.label ≠ "") (not_mem : f.label ∉ seen)
      (type_eq : f.type = .unknown name) : OwnFault seen f (.invalidType name)

/-- **What a field is at fault for**: for something of its own, or else for its children. -/
inductive FieldFault (seen : List String) (f : Field) (remaining : Int32) : SchemaError → Prop
  /-- For its label or its type. -/
  | own {e : SchemaError} (fault : OwnFault seen f e) : FieldFault seen f remaining e
  /-- The children of an `object` field are at fault. -/
  | children {cause : SchemaError} (label_ne : f.label ≠ "") (not_mem : f.label ∉ seen)
      (isObject : f.type = .object) (check_eq : check f.children (remaining - 1) = .error cause) :
    FieldFault seen f remaining (.invalidField f.label cause)

/-! ### Fields -/

/-- A field with a label of its own is turned down for its type, or for its children. -/
theorem checkField_eq_error_iff :
    checkField f remaining = .error e ↔
      (∃ name, f.type = .unknown name ∧ e = .invalidType name) ∨
        (f.type = .object ∧ ∃ cause, check f.children (remaining - 1) = .error cause ∧
          e = .invalidField f.label cause) := by
  obtain ⟨label, type, required, isArray, children⟩ := f
  cases type with
  | unknown name => simp [checkField, eq_comm]
  | object =>
    have hfield : checkField ⟨label, .object, required, isArray, children⟩ remaining =
        (check children (remaining - 1)).mapError (.invalidField label) := rfl
    rw [hfield, Outcome.mapError_eq_error_iff]
    simp only [reduceCtorEq, false_and, exists_false, false_or, true_and, eq_comm]
  | _ => simp [checkField]

/-- A field whose label is not empty and new is at fault exactly if it is turned down. -/
theorem fieldFault_iff (hlabel : f.label ≠ "") (hseen : f.label ∉ seen) :
    FieldFault seen f remaining e ↔ checkField f remaining = .error e := by
  rw [checkField_eq_error_iff]
  constructor
  · intro h
    cases h with
    | own hown =>
      cases hown with
      | emptyLabel hempty => exact absurd hempty hlabel
      | duplicate _ hmem => exact absurd hmem hseen
      | unknownType _ _ htype => exact Or.inl ⟨_, htype, rfl⟩
    | children _ _ hobject hcause => exact Or.inr ⟨hobject, _, hcause, rfl⟩
  · rintro (⟨name, htype, rfl⟩ | ⟨hobject, cause, hcause, rfl⟩)
    · exact .own (.unknownType hlabel hseen htype)
    · exact .children hlabel hseen hobject hcause

/-- A field without a label is at fault for that alone. -/
theorem fieldFault_iff_of_label_eq (hlabel : f.label = "") :
    FieldFault seen f remaining e ↔ e = .emptyLabel := by
  constructor
  · intro h
    cases h with
    | own hown =>
      cases hown with
      | emptyLabel => rfl
      | duplicate hne => exact absurd hlabel hne
      | unknownType hne => exact absurd hlabel hne
    | children hne => exact absurd hlabel hne
  · rintro rfl
    exact .own (.emptyLabel hlabel)

/-- A field whose label has been seen is at fault for that alone. -/
theorem fieldFault_iff_of_label_mem (hlabel : f.label ≠ "") (hseen : f.label ∈ seen) :
    FieldFault seen f remaining e ↔ e = .duplicateField f.label := by
  constructor
  · intro h
    cases h with
    | own hown =>
      cases hown with
      | emptyLabel hempty => exact absurd hempty hlabel
      | duplicate => rfl
      | unknownType _ hnew => exact absurd hseen hnew
    | children _ hnew => exact absurd hseen hnew
  · rintro rfl
    exact .own (.duplicate hlabel hseen)

/-- The walk stops at a field if the field is at fault, and behind it if it passes. -/
theorem checkFields_cons_eq_error_iff :
    checkFields (f :: fields) seen remaining = .error e ↔
      FieldFault seen f remaining e ∨
        (f.label ≠ "" ∧ f.label ∉ seen ∧ checkField f remaining = .ok () ∧
          checkFields fields (f.label :: seen) remaining = .error e) := by
  rw [checkFields]
  by_cases hempty : f.label = ""
  · rw [if_pos hempty, fieldFault_iff_of_label_eq hempty]
    constructor
    · intro h
      exact Or.inl (Except.error.inj h).symm
    · rintro (rfl | ⟨hne, -⟩)
      · rfl
      · exact absurd hempty hne
  by_cases hseen : f.label ∈ seen
  · rw [if_neg hempty, if_pos hseen, fieldFault_iff_of_label_mem hempty hseen]
    constructor
    · intro h
      exact Or.inl (Except.error.inj h).symm
    · rintro (rfl | ⟨-, hnew, -⟩)
      · rfl
      · exact absurd hseen hnew
  · rw [if_neg hempty, if_neg hseen, fieldFault_iff hempty hseen, Outcome.check_bind_eq_error_iff]
    simp [hempty, hseen]

/-- **The walk over fields stops at the first one that is at fault**: it gets through all
fields before it, and has seen their labels on top of those seen before. -/
theorem checkFields_eq_error_iff :
    checkFields fields seen remaining = .error e ↔
      ∃ before f after, fields = before ++ f :: after ∧
        checkFields before seen remaining = .ok () ∧
          FieldFault ((before.map Field.label).reverse ++ seen) f remaining e := by
  induction fields generalizing seen with
  | nil => simp [checkFields]
  | cons f fs ih =>
    rw [checkFields_cons_eq_error_iff, ih]
    constructor
    · rintro (hf | ⟨hlabel, hseen, hf, before, g, after, rfl, hbefore, hg⟩)
      · exact ⟨[], f, fs, rfl, rfl, hf⟩
      · refine ⟨f :: before, g, after, rfl, ?_, ?_⟩
        · rw [checkFields, if_neg hlabel, if_neg hseen]
          exact Outcome.check_bind_eq_ok_iff.mpr ⟨hf, hbefore⟩
        · rwa [List.map_cons, List.reverse_cons, List.append_assoc]
    · rintro ⟨before, g, after, hfields, hbefore, hg⟩
      cases before with
      | nil =>
        obtain ⟨rfl, rfl⟩ := List.cons.inj hfields
        exact Or.inl hg
      | cons f' before =>
        obtain ⟨rfl, rfl⟩ := List.cons.inj hfields
        rw [List.map_cons, List.reverse_cons, List.append_assoc] at hg
        obtain ⟨hlabels, hnodup, hpass⟩ := checkFields_eq_ok_iff.mp hbefore
        obtain ⟨⟨hlabel, hseen⟩, -⟩ := List.forall_mem_cons.mp hlabels
        rw [checkFields, if_neg hlabel, if_neg hseen] at hbefore
        obtain ⟨hf, hbefore⟩ := Outcome.check_bind_eq_ok_iff.mp hbefore
        exact Or.inr ⟨hlabel, hseen, hf, before, g, after, rfl, hbefore, hg⟩

/-! ### Levels -/

/-- Which labels have been seen matters, and not in which order. -/
theorem FieldFault.of_mem_iff {seen' : List String} (hseen : ∀ label, label ∈ seen ↔ label ∈ seen')
    (h : FieldFault seen f remaining e) : FieldFault seen' f remaining e := by
  cases h with
  | own hown =>
    cases hown with
    | emptyLabel hempty => exact .own (.emptyLabel hempty)
    | duplicate hlabel hmem => exact .own (.duplicate hlabel ((hseen _).mp hmem))
    | unknownType hlabel hnew htype =>
      exact .own (.unknownType hlabel (mt (hseen _).mpr hnew) htype)
  | children hlabel hnew hobject hcause =>
    exact .children hlabel (mt (hseen _).mpr hnew) hobject hcause

/-- **A schema is refused** as a whole if the ceiling is below zero, and otherwise at the first
field that is at fault: all fields before it pass. -/
theorem check_eq_error_iff {schema : Schema} :
    check schema ceiling = .error e ↔
      (ceiling.toInt < 0 ∧ e = .depthExceeded) ∨
        (0 ≤ ceiling.toInt ∧ ∃ before f after, schema = before ++ f :: after ∧
          Pass before ceiling ∧ FieldFault (before.map Field.label) f ceiling e) := by
  have hlabels : ∀ (before : List Field) (label : String),
      label ∈ (before.map Field.label).reverse ++ [] ↔ label ∈ before.map Field.label := by
    intro before label
    rw [List.append_nil, List.mem_reverse]
  rw [check, withinDepth_eq_error_iff, checkFields_eq_error_iff]
  refine or_congr Iff.rfl (and_congr Iff.rfl ?_)
  constructor
  · rintro ⟨before, f, after, hschema, hbefore, hf⟩
    exact ⟨before, f, after, hschema, checkFields_nil_eq_ok_iff.mp hbefore,
      hf.of_mem_iff (hlabels before)⟩
  · rintro ⟨before, f, after, hschema, hbefore, hf⟩
    exact ⟨before, f, after, hschema, checkFields_nil_eq_ok_iff.mpr hbefore,
      hf.of_mem_iff fun label => (hlabels before label).symm⟩

end Schema

end ConfigSchema
