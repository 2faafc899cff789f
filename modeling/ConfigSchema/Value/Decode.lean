import ConfigSchema.Json.Basic
import ConfigSchema.Value.Basic

/-!
# Values of JSON trees

A tree becomes a value kind by kind (`ConfigSchema.Value.ofJson`); its arrays become lists
of arbitrary values, never lists with a fixed element kind. The one kind without a
counterpart is the integer above the range of 64 bits with sign: it becomes an unsupported
value with a fixed name.
-/

namespace ConfigSchema

namespace Value

/-- The name under which integers above the range are kept. -/
def unsignedInteger : String := "unsigned integer"

/-- The value of a number. -/
def ofNumber : Json.Number → Value
  | .natural n =>
    if n.toNat < Nat.pow 2 63 then .integer n.toInt64 else .unsupported unsignedInteger
  | .negative n => .integer n
  | .float x => .float x

mutual

/-- **The value of a tree.** -/
def ofJson : Json.Tree → Value
  | .null => .null
  | .boolean b => .boolean b
  | .number n => ofNumber n
  | .string s => .string s
  | .array items => .list (ofItems items)
  | .object members => .map (ofMembers members)

/-- The values of the elements of an array. -/
def ofItems : List Json.Tree → List Value
  | [] => []
  | j :: rest => ofJson j :: ofItems rest

/-- The entries of an object. -/
def ofMembers : List (String × Json.Tree) → List (String × Value)
  | [] => []
  | (k, j) :: rest => (k, ofJson j) :: ofMembers rest

end

end Value

/-- The payload of a tree, which only an object has. -/
def Payload.ofJson? (j : Json.Tree) : Option Payload := (Value.ofJson j).entries?

end ConfigSchema
