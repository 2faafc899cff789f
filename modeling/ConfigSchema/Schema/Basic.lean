/-!
# Declarative schemas

A schema describes the expected shape of a payload. It is an ordered list of field
declarations, one nesting level; a field of type `object` owns the schema of the level
below in its children, whether the field holds one object or an array of objects. Children
may be declared on a field of any type, where they mean nothing.

A type name that is not recognised is kept with the field: reporting it is the task of the
check of the schema (`ConfigSchema.Schema.check`), not of reading it.
-/

namespace ConfigSchema

/-- The declared type of a field. -/
inductive FieldType where
  /-- A text. -/
  | string
  /-- An integer. -/
  | int
  /-- A floating point number. -/
  | float
  /-- A floating point number, under another name. -/
  | decimal
  /-- A truth value. -/
  | boolean
  /-- A map with a schema of its own. -/
  | object
  /-- A type that is not recognised, by its name. -/
  | unknown (name : String)
  deriving DecidableEq, Repr, Inhabited

namespace FieldType

/-- The type with a name; every name that is not one of the six is kept as unknown. -/
def parse (name : String) : FieldType :=
  if name = "string" then .string
  else if name = "int" then .int
  else if name = "float" then .float
  else if name = "decimal" then .decimal
  else if name = "boolean" then .boolean
  else if name = "object" then .object
  else .unknown name

/-- The name of a type. -/
def name : FieldType → String
  | .string => "string"
  | .int => "int"
  | .float => "float"
  | .decimal => "decimal"
  | .boolean => "boolean"
  | .object => "object"
  | .unknown name => name

/-- The type is one of the six. A type that was made as unknown is not, whatever its name
is. -/
def isKnown : FieldType → Bool
  | .unknown _ => false
  | _ => true

/-- The type owns a schema of its own. -/
def isObject : FieldType → Bool
  | .object => true
  | _ => false

/-- Parsing keeps the name. -/
@[simp] theorem name_parse (name : String) : (parse name).name = name := by
  unfold parse
  repeat' split
  all_goals simp_all [FieldType.name]

/-- The six types are read back from their names. -/
theorem parse_name_of_isKnown {t : FieldType} (h : t.isKnown = true) : parse t.name = t := by
  cases t with
  | unknown name => exact absurd h (by simp [isKnown])
  | _ => decide

end FieldType

/-- One named, typed entry of a schema. -/
structure Field where
  /-- The key of the field in a payload. -/
  label : String
  /-- The declared type. -/
  type : FieldType
  /-- The field must be present, and an array must have elements. -/
  required : Bool := false
  /-- The field holds a list of values of the declared type. -/
  isArray : Bool := false
  /-- The schema of the level below, of an `object` field. -/
  children : List Field := []
  deriving Repr, Inhabited

/-- One nesting level: the declared fields, in order. -/
abbrev Schema := List Field

mutual

/-- Equality of fields is decidable. -/
def Field.decEq : (a b : Field) → Decidable (a = b)
  | ⟨l, t, r, s, c⟩, ⟨l', t', r', s', c'⟩ =>
    match Schema.decEq c c' with
    | .isTrue h =>
      if h' : l = l' ∧ t = t' ∧ r = r' ∧ s = s' then .isTrue (by simp [h, h'])
      else .isFalse (by
        intro heq
        injection heq with hl ht hr hs
        exact h' ⟨hl, ht, hr, hs⟩)
    | .isFalse h => .isFalse (by intro heq; injection heq; contradiction)

/-- Equality of schemas is decidable. -/
def Schema.decEq : (a b : List Field) → Decidable (a = b)
  | [], [] => .isTrue rfl
  | [], _ :: _ => .isFalse (by simp)
  | _ :: _, [] => .isFalse (by simp)
  | f :: fs, g :: gs =>
    match Field.decEq f g, Schema.decEq fs gs with
    | .isTrue h, .isTrue h' => .isTrue (by rw [h, h'])
    | .isFalse h, _ => .isFalse (by simp [h])
    | _, .isFalse h => .isFalse (by simp [h])

end

/-- Fields, and with them schemas, can be compared. -/
instance : DecidableEq Field := Field.decEq

/-! ### Depth -/

mutual

/-- The levels that a field adds: an `object` field adds its own and those of its
children. -/
def Field.depth : Field → Nat
  | ⟨_, type, _, _, children⟩ => if type.isObject then 1 + Schema.depth children else 0

/-- **The nesting depth** of a schema, counted in levels of `object` fields. -/
def Schema.depth : List Field → Nat
  | [] => 0
  | f :: fs => max f.depth (Schema.depth fs)

end

end ConfigSchema
