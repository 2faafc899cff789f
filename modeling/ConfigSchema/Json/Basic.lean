import ConfigSchema.Binary64
import ConfigSchema.Keyed

/-!
# JSON trees

A tree is what is left of a JSON text when spacing, escapes and repeated keys are gone: the
members of an object are a key-sorted list (`ConfigSchema.Keyed`), so the order in which
they were written is not part of the tree. Numbers keep their nature: an integer without
sign, a negative integer, and everything else as floating point.
-/

namespace ConfigSchema.Json

/-- A number of a tree. -/
inductive Number where
  /-- An integer without a sign. -/
  | natural (n : UInt64)
  /-- An integer below zero. -/
  | negative (n : Int64)
  /-- A number with a fraction or an exponent, or an integer outside both ranges. -/
  | float (x : Binary64)
  deriving DecidableEq, Repr, Inhabited

/-- A JSON tree. -/
inductive Tree where
  /-- The null value. -/
  | null
  /-- A truth value. -/
  | boolean (value : Bool)
  /-- A number. -/
  | number (value : Number)
  /-- A string. -/
  | string (value : String)
  /-- An array, its elements in order. -/
  | array (items : List Tree)
  /-- An object, its members sorted by key. -/
  | object (members : List (String × Tree))
  deriving Repr, Inhabited

end ConfigSchema.Json
