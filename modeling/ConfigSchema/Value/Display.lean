import ConfigSchema.Decimal.Layout
import ConfigSchema.Text.Diagnostic
import ConfigSchema.Value.Basic

/-!
# The text of a value

A text is shown as it is; any other value is shown with the names of its kinds, on one
line. The entries of a map are shown in the order of a hash table, which is not fixed: a map
with two or more entries has no single text, and neither has a value that contains one.
`ConfigSchema.Value.display?` gives the text of the values that have one.
-/

namespace ConfigSchema

/-- How floating point numbers are laid out inside a value: positionally from `0.0001` to
below `10 ^ 16`, otherwise with an exponent that has a sign only when it is negative, and of
two equally near decimals the larger. -/
def Value.floatLayout : Layout where
  tie := .up
  least := -4
  greatest := 15
  plus := false

example : Value.floatLayout.write ⟨0x4341c37937e08000⟩ = "1e16" := by decide +kernel
example : Value.floatLayout.write ⟨0x3f1a36e2eb1c432d⟩ = "0.0001" := by decide +kernel

/-- The text of a list with a fixed element kind. -/
def TypedList.describe : TypedList → String
  | .strings items => "Strings(" ++ Text.enclosed "[" (items.map Text.quoted) "])"
  | .integers items => "Integers(" ++ Text.enclosed "[" (items.map (toString ·.toInt)) "])"
  | .floats items => "Floats(" ++ Text.enclosed "[" (items.map Value.floatLayout.write) "])"
  | .booleans items => "Booleans(" ++ Text.enclosed "[" (items.map Text.truth) "])"

namespace Value

mutual

/-- The text of a value with the names of its kinds, entries of maps in the order of their
keys. -/
def describe : Value → String
  | .string value => "String(" ++ Text.quoted value ++ ")"
  | .integer value => "Integer(" ++ toString value.toInt ++ ")"
  | .float value => "Float(" ++ floatLayout.write value ++ ")"
  | .boolean value => "Boolean(" ++ Text.truth value ++ ")"
  | .list items => "List(" ++ Text.enclosed "[" (describeItems items) "])"
  | .map entries => "Map(" ++ Text.enclosed "\x7b" (describeEntries entries) "\x7d)"
  | .typedList items => "TypedList(" ++ items.describe ++ ")"
  | .unsupported name => "Unsupported(" ++ Text.quoted name ++ ")"
  | .null => "Null"

/-- The texts of the elements of a list. -/
def describeItems : List Value → List String
  | [] => []
  | v :: rest => describe v :: describeItems rest

/-- The texts of the entries of a map. -/
def describeEntries : List (String × Value) → List String
  | [] => []
  | (k, v) :: rest => (Text.quoted k ++ ": " ++ describe v) :: describeEntries rest

end

mutual

/-- No map inside the value has two or more entries. -/
def hasFixedOrder : Value → Bool
  | .list items => allHaveFixedOrder items
  | .map entries => entries.length < 2 && entriesHaveFixedOrder entries
  | _ => true

/-- No map inside one of the elements has two or more entries. -/
def allHaveFixedOrder : List Value → Bool
  | [] => true
  | v :: rest => hasFixedOrder v && allHaveFixedOrder rest

/-- No map inside the value of one of the entries has two or more entries. -/
def entriesHaveFixedOrder : List (String × Value) → Bool
  | [] => true
  | (_, v) :: rest => hasFixedOrder v && entriesHaveFixedOrder rest

end

/-- The text of a value: a text as it is, all else described. -/
def display : Value → String
  | .string value => value
  | v => v.describe

/-- The text of a value, if no order of entries has to be chosen for it. -/
def display? (v : Value) : Option String :=
  if v.hasFixedOrder then some v.display else none

end Value

end ConfigSchema
