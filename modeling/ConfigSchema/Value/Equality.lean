import ConfigSchema.Value.Basic

/-!
# Numeric equality of values

Two values are equal when they have the same shape and equal leaves, where floating point
numbers are compared numerically (`ConfigSchema.Binary64.equal`): a value that contains a
word that is not a number equals nothing, itself included, and the two zeros are equal.
Kinds never mix: an integer equals no floating point number, and a list of arbitrary values
equals no list with a fixed element kind. The entries of maps are sorted by key, so maps
are equal as maps when their entries are equal one by one.
-/

namespace ConfigSchema

/-- Lists of floating point numbers, compared one by one. -/
def TypedList.equalFloats : List Binary64 → List Binary64 → Bool
  | [], [] => true
  | x :: xs, y :: ys => x.equal y && equalFloats xs ys
  | _, _ => false

/-- Equality of lists with a fixed element kind. -/
def TypedList.equal : TypedList → TypedList → Bool
  | .strings a, .strings b => a == b
  | .integers a, .integers b => a == b
  | .floats a, .floats b => equalFloats a b
  | .booleans a, .booleans b => a == b
  | _, _ => false

namespace Value

mutual

/-- **Equality of values**, numeric at the leaves. -/
def equal : Value → Value → Bool
  | .string a, .string b => a == b
  | .integer a, .integer b => a == b
  | .float a, .float b => a.equal b
  | .boolean a, .boolean b => a == b
  | .list a, .list b => equalItems a b
  | .map a, .map b => equalEntries a b
  | .typedList a, .typedList b => a.equal b
  | .unsupported a, .unsupported b => a == b
  | .null, .null => true
  | _, _ => false

/-- Equality of lists of values. -/
def equalItems : List Value → List Value → Bool
  | [], [] => true
  | a :: as, b :: bs => equal a b && equalItems as bs
  | _, _ => false

/-- Equality of the entries of two maps: the same keys, with equal values. -/
def equalEntries : List (String × Value) → List (String × Value) → Bool
  | [], [] => true
  | (k, a) :: as, (l, b) :: bs => k == l && equal a b && equalEntries as bs
  | _, _ => false

end

end Value

/-- Equality of payloads. -/
def Payload.equal (a b : Payload) : Bool := Value.equalEntries a b

end ConfigSchema
