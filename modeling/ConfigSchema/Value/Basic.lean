import ConfigSchema.Binary64
import ConfigSchema.Keyed

/-!
# Values of a payload

A configuration payload maps labels to values. The kinds of value are a closed set: what
does not belong to one of them is kept as an unsupported value with a name, so that it can
be reported rather than coerced.

A list comes in two forms that are never taken for each other: a list of arbitrary values,
and a list whose element kind was fixed when it was made.
-/

namespace ConfigSchema

/-- A list whose element kind is fixed. -/
inductive TypedList where
  /-- A list of strings. -/
  | strings (items : List String)
  /-- A list of integers. -/
  | integers (items : List Int64)
  /-- A list of floating point numbers. -/
  | floats (items : List Binary64)
  /-- A list of truth values. -/
  | booleans (items : List Bool)
  deriving DecidableEq, Repr, Inhabited

/-- A value of a payload. -/
inductive Value where
  /-- A text. -/
  | string (value : String)
  /-- An integer of 64 bits. -/
  | integer (value : Int64)
  /-- A floating point number. -/
  | float (value : Binary64)
  /-- A truth value. -/
  | boolean (value : Bool)
  /-- A list of arbitrary values. -/
  | list (items : List Value)
  /-- A map, its entries sorted by key. -/
  | map (entries : List (String × Value))
  /-- A list whose element kind is fixed. -/
  | typedList (items : TypedList)
  /-- A value outside the closed set of kinds, named for diagnostics. -/
  | unsupported (name : String)
  /-- No value. -/
  | null
  deriving Repr, Inhabited

/-- The entries of a payload, sorted by label. -/
abbrev Payload := List (String × Value)

/-- The kind of the elements of a list whose element kind is fixed. -/
inductive TypedList.Kind where
  /-- Strings. -/
  | string
  /-- Integers. -/
  | integer
  /-- Floating point numbers. -/
  | float
  /-- Truth values. -/
  | boolean
  deriving DecidableEq, Repr

/-- The kind of a value, as diagnostics name it. -/
inductive Value.Kind where
  /-- A text. -/
  | string
  /-- An integer. -/
  | integer
  /-- A floating point number. -/
  | float
  /-- A truth value. -/
  | boolean
  /-- A list of arbitrary values. -/
  | list
  /-- A map. -/
  | map
  /-- A list with a fixed element kind. -/
  | typedList (element : TypedList.Kind)
  /-- No value. -/
  | null
  /-- A value outside the closed set, by its name. -/
  | unsupported (name : String)
  deriving DecidableEq, Repr

namespace TypedList

/-- The element kind of a list. -/
def kind : TypedList → TypedList.Kind
  | .strings _ => .string
  | .integers _ => .integer
  | .floats _ => .float
  | .booleans _ => .boolean

/-- The name of an element kind. -/
def Kind.name : TypedList.Kind → String
  | .string => "string"
  | .integer => "integer"
  | .float => "float"
  | .boolean => "boolean"

end TypedList

namespace Value

/-- The name of a kind in diagnostics. The name of an unsupported kind stands as it is, so
two different kinds may have one name. -/
def Kind.name : Value.Kind → String
  | .string => "string"
  | .integer => "integer"
  | .float => "float"
  | .boolean => "boolean"
  | .list => "list"
  | .map => "map"
  | .typedList element => "list<" ++ element.name ++ ">"
  | .null => "null"
  | .unsupported name => name

/-- The kind of a value. -/
def kind : Value → Value.Kind
  | .string _ => .string
  | .integer _ => .integer
  | .float _ => .float
  | .boolean _ => .boolean
  | .list _ => .list
  | .map _ => .map
  | .typedList items => .typedList items.kind
  | .unsupported name => .unsupported name
  | .null => .null

/-- The elements of a list of arbitrary values; a list with a fixed element kind gives
none. -/
def items? : Value → Option (List Value)
  | .list items => some items
  | _ => none

/-- The entries of a map. -/
def entries? : Value → Option Payload
  | .map entries => some entries
  | _ => none

/-- Only a list of arbitrary values has elements. -/
theorem items?_eq_some_iff {v : Value} {items : List Value} :
    v.items? = some items ↔ v = .list items := by
  cases v <;> simp [items?]

/-- Only a map has entries. -/
theorem entries?_eq_some_iff {v : Value} {entries : Payload} :
    v.entries? = some entries ↔ v = .map entries := by
  cases v <;> simp [entries?]

end Value

end ConfigSchema
