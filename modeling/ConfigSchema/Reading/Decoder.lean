import ConfigSchema.Reading.Tree

/-!
# Decoders

A decoder reads a typed value in two ways: straight from text, in one pass, or from a tree
that has been read before. The two agree on what they accept wherever the text repeats no
key, but not on which fault comes first: a text is judged from left to right, its syntax
and its types at once, while a tree has no faults of syntax left and its members come in
the order of their keys.

A scalar is judged by how the value begins, and that is the same judgement in both ways.
-/

namespace ConfigSchema.Reading

variable {α β : Type}

/-- How a typed value is read. -/
structure Decoder (α : Type) where
  /-- Reads it from text. -/
  ofText : Reader α
  /-- Reads it from a tree. -/
  ofTree : Json.Tree → Except Fault α

namespace Decoder

/-- The values of a decoder, changed by a function. -/
def map (f : α → β) (decoder : Decoder α) : Decoder β where
  ofText := Reader.map f decoder.ofText
  ofTree j := (decoder.ofTree j).map f

/-! ### Scalars -/

/-- The decoder that judges a value by how it begins. -/
def scalar (judge : Lexeme → Except Fault α) : Decoder α where
  ofText := fun s => do
    let head ← lexeme s
    let x ← judge head.value
    return ⟨x, head.rest, head.bound⟩
  ofTree j := judge (.ofTree j)

/-- A string. -/
def string : Decoder String :=
  scalar fun
    | .string text => .ok text
    | found => .error (.invalidType found "a string")

/-- A truth value. -/
def boolean : Decoder Bool :=
  scalar fun
    | .boolean b => .ok b
    | found => .error (.invalidType found "a boolean")

/-- The null value. -/
def unit : Decoder Unit :=
  scalar fun
    | .null => .ok ()
    | found => .error (.invalidType found "unit")

/-- An integer of 32 bits, if it is in range. -/
def toInt32 (n : Int) : Except Fault Int32 :=
  if Int32.minValue.toInt ≤ n ∧ n ≤ Int32.maxValue.toInt then .ok (Int32.ofInt n)
  else .error (.integerOutOfRange n "i32")

/-- An integer of 32 bits; no floating point number is one, whatever its value. -/
def int32 : Decoder Int32 :=
  scalar fun
    | .number (.natural n) => toInt32 n.toNat
    | .number (.negative n) => toInt32 n.toInt
    | found => .error (.invalidType found "i32")

/-! ### Lists -/

/-- An array, given a decoder for its elements, one level down. -/
def list (inner : Option (Decoder α)) : Decoder (List α) where
  ofText := fun s => do
    let head ← lexeme s
    match head.value with
    | .array =>
      let taken ← descend inner (fun item => elements item.ofText) head.rest
      return taken.weaken head.bound
    | found => throw (.invalidType found "a sequence")
  ofTree
    | .array items =>
      match inner with
      | none => .error .tooDeep
      | some item => items.mapM item.ofTree
    | j => .error (.invalidType (.ofTree j) "a sequence")

end Decoder

end ConfigSchema.Reading
