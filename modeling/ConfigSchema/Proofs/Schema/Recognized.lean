import ConfigSchema.Proofs.Schema.Levels

/-!
# Schemas with recognised types

A type may be made as unknown under the name of one of the six types. It is then another type
than the one of this name, but nothing of the difference is left in a text, where a type is its
name. What comes back from a text is the schema in which the name of every unknown type has
been parsed (`ConfigSchema.Schema.recognized`), at all levels and below fields of all types.

Most schemas are left as they are by this: all but those that *declare*
(`ConfigSchema.Schema.Declares`), somewhere, a field whose type is unknown under one of the
six names (`ConfigSchema.Schema.recognized_eq_iff`). In particular no type changes at a level
that the check of the schema reaches, if the schema passes; so it passes under the same
ceilings as before (`ConfigSchema.Schema.check_recognized_iff`).
-/

namespace ConfigSchema

/-! ### Types -/

namespace FieldType

/-- The names of the six types that are recognised. -/
def names : List String := ["string", "int", "float", "decimal", "boolean", "object"]

/-- The type with the name of an unknown type parsed. -/
def recognized : FieldType → FieldType
  | .unknown name => parse name
  | type => type

@[simp] theorem name_recognized (type : FieldType) : type.recognized.name = type.name := by
  cases type with
  | unknown name => exact name_parse name
  | _ => rfl

/-- A type that is written is read back as the recognised one. -/
theorem parse_name (type : FieldType) : parse type.name = type.recognized := by
  cases type with
  | unknown name => rfl
  | _ => exact parse_name_of_isKnown rfl

theorem recognized_of_isKnown {type : FieldType} (h : type.isKnown = true) :
    type.recognized = type := by
  cases type with
  | unknown name => cases h
  | _ => rfl

/-- A name stays unknown exactly if it is not one of the six. -/
theorem parse_eq_unknown_iff {name : String} : parse name = .unknown name ↔ name ∉ names := by
  have hmem : name ∈ names ↔ name = "string" ∨ name = "int" ∨ name = "float" ∨
      name = "decimal" ∨ name = "boolean" ∨ name = "object" := by
    simp only [names, List.mem_cons, List.not_mem_nil, or_false]
  rw [hmem, parse]
  repeat' split
  all_goals simp_all

/-- A type stays as it is exactly if it is not unknown under one of the six names. -/
theorem recognized_eq_iff {type : FieldType} :
    type.recognized = type ↔ ∀ name, type = .unknown name → name ∉ names := by
  cases type with
  | unknown name =>
    refine parse_eq_unknown_iff.trans ⟨fun h other heq => ?_, fun h => h name rfl⟩
    obtain rfl := FieldType.unknown.inj heq
    exact h
  | _ => exact iff_of_true rfl fun _ h => by cases h

end FieldType

/-! ### Fields and schemas -/

mutual

/-- The field with all names of unknown types parsed. -/
def Field.recognized : Field → Field
  | ⟨label, type, required, isArray, children⟩ =>
    ⟨label, type.recognized, required, isArray, Schema.recognized children⟩

/-- **The schema with all names of unknown types parsed**, at all levels. -/
def Schema.recognized : List Field → List Field
  | [] => []
  | f :: fs => f.recognized :: Schema.recognized fs

end

namespace Field

@[simp] theorem recognized_label (f : Field) : f.recognized.label = f.label := by
  cases f
  rfl

@[simp] theorem recognized_type (f : Field) : f.recognized.type = f.type.recognized := by
  cases f
  rfl

@[simp] theorem recognized_children (f : Field) :
    f.recognized.children = Schema.recognized f.children := by
  cases f
  rfl

/-- A recognised field in terms of the parts of the field. -/
theorem recognized_eq (f : Field) :
    f.recognized =
      ⟨f.label, f.type.recognized, f.required, f.isArray, Schema.recognized f.children⟩ := by
  cases f
  rfl

/-- A field stays as it is exactly if its type and its children do. -/
theorem recognized_eq_iff {f : Field} :
    f.recognized = f ↔ f.type.recognized = f.type ∧ Schema.recognized f.children = f.children := by
  cases f
  simp [recognized]

end Field

namespace Schema

/-- Of a level each field is recognised on its own. -/
theorem recognized_eq_map (schema : List Field) :
    Schema.recognized schema = schema.map Field.recognized := by
  induction schema with
  | nil => rfl
  | cons f fs ih => rw [Schema.recognized, ih, List.map_cons]

/-- **A field stands somewhere in a schema**, at whatever level, and below fields of whatever
type. -/
inductive Declares : List Field → Field → Prop
  /-- It stands at the first level. -/
  | first {schema : List Field} {f : Field} (hf : f ∈ schema) : Declares schema f
  /-- It stands in the children of a field of the first level. -/
  | nested {schema : List Field} {f g : Field} (hf : f ∈ schema) (hg : Declares f.children g) :
    Declares schema g

/-- What holds of all fields of a schema holds of those of the first level, and of all fields
in their children. -/
theorem forall_declares_iff {schema : List Field} {P : Field → Prop} :
    (∀ f, Declares schema f → P f) ↔
      ∀ f ∈ schema, P f ∧ ∀ g, Declares f.children g → P g := by
  constructor
  · intro h f hf
    exact ⟨h f (.first hf), fun g hg => h g (.nested hf hg)⟩
  · intro h g hg
    cases hg with
    | first hf => exact (h g hf).1
    | nested hf hg => exact (h _ hf).2 g hg

/-- **A schema stays as it is** exactly if none of its fields has a type that is unknown under
one of the six names. -/
theorem recognized_eq_iff {schema : List Field} :
    Schema.recognized schema = schema ↔
      ∀ f, Declares schema f → ∀ name, f.type = .unknown name → name ∉ FieldType.names := by
  induction schema using levelInduction with
  | level fields ih =>
    have hmap : fields.map Field.recognized = fields ↔ ∀ f ∈ fields, f.recognized = f := by
      have hid := List.map_inj_left (f := Field.recognized) (g := id) (l := fields)
      rwa [List.map_id] at hid
    rw [recognized_eq_map, hmap, forall_declares_iff]
    refine forall_congr' fun f => forall_congr' fun hf => ?_
    rw [Field.recognized_eq_iff, FieldType.recognized_eq_iff, ih f hf]

/-- The fields of a recognised schema are the recognised fields. -/
theorem exists_of_declares_recognized {schema : List Field} {g : Field}
    (h : Declares (Schema.recognized schema) g) : ∃ f, Declares schema f ∧ f.recognized = g := by
  induction schema using levelInduction generalizing g with
  | level fields ih =>
    rw [recognized_eq_map] at h
    cases h with
    | first hg =>
      obtain ⟨f, hf, rfl⟩ := List.mem_map.mp hg
      exact ⟨f, .first hf, rfl⟩
    | nested hmem hbelow =>
      obtain ⟨f, hf, rfl⟩ := List.mem_map.mp hmem
      rw [Field.recognized_children] at hbelow
      obtain ⟨g, hg, rfl⟩ := ih f hf hbelow
      exact ⟨g, .nested hf hg, rfl⟩

/-! ### The check -/

/-- A well-formed level has nothing to be parsed, and stays well formed. -/
theorem LevelWellFormed.recognized {level : Schema} (h : LevelWellFormed level) :
    LevelWellFormed (Schema.recognized level) := by
  have hlabels : (level.map Field.recognized).map Field.label = level.map Field.label := by
    rw [List.map_map]
    exact List.map_congr_left fun f _ => Field.recognized_label f
  rw [recognized_eq_map]
  refine ⟨List.forall_mem_map.mpr fun f hf => ?_, hlabels ▸ h.nodup_labels,
    List.forall_mem_map.mpr fun f hf => ?_⟩
  · rw [Field.recognized_label]
    exact h.label_ne_empty f hf
  · rw [Field.recognized_type, FieldType.recognized_of_isKnown (h.isKnown_type f hf)]
    exact h.isKnown_type f hf

/-- **A schema that passes under some ceiling** passes under the same ceilings once its types
are recognised. -/
theorem check_recognized_iff {schema : Schema} {ceiling ceiling' : Int32}
    (h : check schema ceiling = .ok ()) :
    check (Schema.recognized schema) ceiling' = .ok () ↔ check schema ceiling' = .ok () := by
  induction schema using levelInduction generalizing ceiling ceiling' with
  | level fields ih =>
    obtain ⟨-, hlevel, hchildren⟩ := check_eq_ok_iff.mp h
    have hbelow : ∀ f ∈ fields, (f.recognized.type = .object →
        check f.recognized.children (ceiling' - 1) = .ok ()) ↔
          (f.type = .object → check f.children (ceiling' - 1) = .ok ()) := by
      intro f hf
      rw [Field.recognized_type, Field.recognized_children,
        FieldType.recognized_of_isKnown (hlevel.isKnown_type f hf)]
      exact forall_congr' fun ho => ih f hf (hchildren f hf ho)
    have hlevels : LevelWellFormed (Schema.recognized fields) ↔ LevelWellFormed fields :=
      iff_of_true hlevel.recognized hlevel
    rw [check_eq_ok_iff, check_eq_ok_iff, hlevels, recognized_eq_map, List.forall_mem_map]
    exact and_congr_right fun _ => and_congr_right fun _ =>
      forall_congr' fun f => forall_congr' fun hf => hbelow f hf

end Schema

end ConfigSchema
