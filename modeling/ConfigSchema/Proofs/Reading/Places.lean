import ConfigSchema.Proofs.Keyed
import ConfigSchema.Proofs.Reading.Spelled
import ConfigSchema.Proofs.Value.Decoded

/-!
# Places in a document

A place is reached from the whole of a document by steps, to the value of a key or to an
element. The same steps lead down in the value that the document is decoded to, and they lead
to the value of what stands there (`ConfigSchema.Reading.Spelled.at?_value`). Where an object
repeats a key, a step goes to the last member that has it, since that is the one which counts.
-/

namespace ConfigSchema

/-- **One step down** in a document or in a value. -/
inductive Json.Step where
  /-- To the value of a key. -/
  | key (key : String)
  /-- To an element, counted from zero. -/
  | element (index : Nat)

/-- What a value has one step down. -/
def Value.below? : Json.Step → Value → Option Value
  | .key key, .map entries => Keyed.get? key entries
  | .element index, .list items => items[index]?
  | _, _ => none

/-- **What a value has at a place.** -/
def Value.at? : List Json.Step → Value → Option Value
  | [], v => some v
  | step :: place, v => (v.below? step).bind (Value.at? place)

/-- There is nothing below a number. -/
theorem Value.below?_ofNumber (step : Json.Step) (n : Json.Number) :
    (Value.ofNumber n).below? step = none := by
  cases n with
  | natural n =>
    rw [ofNumber]
    split <;> cases step <;> rfl
  | _ => cases step <;> rfl

namespace Reading.Spelled

/-- What a document has one step down. -/
def below? : Json.Step → Spelled → Option Spelled
  | .key key, .object members => Keyed.last? key members
  | .element index, .array items => items[index]?
  | _, _ => none

/-- **What a document has at a place.** -/
def at? : List Json.Step → Spelled → Option Spelled
  | [], w => some w
  | step :: place, w => (w.below? step).bind (at? place)

/-- **The value of a document**: what its tree is decoded to. -/
def value (w : Spelled) : Value := Value.ofJson w.parsed.tree

theorem value_number (n : WrittenNumber) : (number n).value = Value.ofNumber n.value := rfl

theorem value_array (items : List Spelled) : (array items).value = .list (items.map value) := by
  rw [value, parsed, parsedItems_eq_map, Json.Parsed.tree_array, Value.ofJson,
    Value.ofItems_eq_map, List.map_map, List.map_map]
  rfl

theorem get?_value_object (key : String) (members : List (String × Spelled)) :
    (object members).value.below? (.key key) = (Keyed.last? key members).map value := by
  rw [value, parsed, Json.Parsed.tree_object, Value.ofJson, Value.below?, Value.get?_ofMembers,
    Json.Parsed.lastEntries, Keyed.get?_ofList, Keyed.last?_map, parsedMembers_eq_map,
    Keyed.last?_map, Option.map_map, Option.map_map]
  rfl

/-- One step down leads to the value of what stands there. -/
theorem below?_value (step : Json.Step) (w : Spelled) :
    w.value.below? step = (w.below? step).map value := by
  cases w with
  | array items =>
    rw [value_array]
    cases step with
    | key key => rfl
    | element index => exact List.getElem?_map
  | object members =>
    cases step with
    | key key => exact get?_value_object key members
    | element index => rfl
  | number n =>
    rw [value_number, Value.below?_ofNumber]
    cases step <;> rfl
  | _ => cases step <;> rfl

/-- **A place leads to the value of what stands there.** -/
theorem at?_value (place : List Json.Step) (w : Spelled) :
    w.value.at? place = (w.at? place).map value := by
  induction place generalizing w with
  | nil => rfl
  | cons step place ih =>
    rw [Value.at?, at?, below?_value]
    cases w.below? step with
    | none => rfl
    | some below => exact ih below

end Reading.Spelled

end ConfigSchema
