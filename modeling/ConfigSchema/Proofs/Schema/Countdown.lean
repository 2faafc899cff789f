import ConfigSchema.Proofs.Schema.Levels
import Mathlib.Algebra.Group.Int.Defs

/-!
# The count of levels never leaves its range

The check of a schema counts the levels that are left in a word of 32 bits, whose
subtraction wraps around at the lower end. This file runs the same check on integers without
bounds, and stops it without an answer as soon as a subtraction gives something that is no
integer of 32 bits (`ConfigSchema.Schema.Exact.check`). It always answers, and its answer is
that of the check on words (`ConfigSchema.Schema.Exact.check_eq_some_check`): a level whose
count is below zero is refused before anything is subtracted from the count, so the lower
end is never met.
-/

namespace ConfigSchema

namespace Schema.Exact

/-- One less, if that is an integer of 32 bits. -/
def countDown (remaining : Int) : Option Int :=
  if -2 ^ 31 ≤ remaining - 1 ∧ remaining - 1 < 2 ^ 31 then some (remaining - 1) else none

/-- Answers for a level if the remaining depth is not below zero, and refuses it if it is. -/
def withinDepth (remaining : Int) (level : Int → Option (Except SchemaError Unit)) :
    Option (Except SchemaError Unit) :=
  if remaining < 0 then some (.error .depthExceeded) else level remaining

mutual

/-- Checks the type of a field, and the children of an `object` field one level down; there
is no answer if the count leaves its range. -/
def checkField : Field → Int → Option (Except SchemaError Unit)
  | ⟨label, type, _, _, children⟩, remaining =>
    match type with
    | .unknown name => some (.error (.invalidType name))
    | .object => do
      let below ← countDown remaining
      let answer ← withinDepth below (checkFields children [])
      return answer.mapError (.invalidField label)
    | _ => some (.ok ())

/-- Checks the fields of a level in order, given the labels of those before them; there is
no answer if the count leaves its range on the way. -/
def checkFields : List Field → List String → Int → Option (Except SchemaError Unit)
  | [], _, _ => some (.ok ())
  | f :: fs, seen, remaining =>
    if f.label = "" then some (.error .emptyLabel)
    else if f.label ∈ seen then some (.error (.duplicateField f.label))
    else do
      match ← checkField f remaining with
      | .ok () => checkFields fs (f.label :: seen) remaining
      | .error e => some (.error e)

end

/-- **The check of a schema on integers without bounds**, without an answer if the count of
levels leaves the range of 32 bits. -/
def check (schema : Schema) (ceiling : Int) : Option (Except SchemaError Unit) :=
  withinDepth ceiling (checkFields schema [])

/-! ### The range is never left -/

/-- A word that is not below zero is counted down within the range. -/
theorem countDown_toInt {n : Int32} (h : 0 ≤ n.toInt) :
    countDown n.toInt = some (n - 1).toInt := by
  have hlt := n.toInt_lt
  rw [countDown, toInt_sub_one h, if_pos (by omega)]

/-- A level is refused by the one count exactly if it is by the other. -/
theorem withinDepth_toInt {n : Int32} {exact : Int → Option (Except SchemaError Unit)}
    {level : Int32 → Except SchemaError Unit}
    (h : 0 ≤ n.toInt → exact n.toInt = some (level n)) :
    withinDepth n.toInt exact = some (Schema.withinDepth n level) := by
  rcases Int.lt_or_le n.toInt 0 with hneg | hnonneg
  · rw [withinDepth, if_pos hneg, withinDepth_of_neg hneg]
  · rw [withinDepth, if_neg (Int.not_lt.mpr hnonneg), withinDepth_of_nonneg hnonneg]
    exact h hnonneg

/-- The two checks agree on a field if they agree on its children. -/
theorem checkField_eq_some {f : Field} {n : Int32} (hn : 0 ≤ n.toInt)
    (h : check f.children (n - 1).toInt = some (Schema.check f.children (n - 1))) :
    checkField f n.toInt = some (Schema.checkField f n) := by
  obtain ⟨label, type, required, isArray, children⟩ := f
  cases type with
  | object =>
    have hbelow : withinDepth (n - 1).toInt (checkFields children []) =
        some (Schema.withinDepth (n - 1) (Schema.checkFields children [])) := h
    simp only [checkField, Schema.checkField, countDown_toInt hn, Option.bind_eq_bind,
      Option.bind_some, hbelow, Option.pure_def]
  | _ => rfl

/-- The two checks agree on the fields of a level if they agree on each of them. -/
theorem checkFields_eq_some {fields : List Field} {seen : List String} {n : Int32}
    (h : ∀ f ∈ fields, checkField f n.toInt = some (Schema.checkField f n)) :
    checkFields fields seen n.toInt = some (Schema.checkFields fields seen n) := by
  induction fields generalizing seen with
  | nil => rfl
  | cons f fs ih =>
    obtain ⟨hf, hfs⟩ := List.forall_mem_cons.mp h
    rw [checkFields, Schema.checkFields]
    by_cases hempty : f.label = ""
    · rw [if_pos hempty, if_pos hempty]
    rw [if_neg hempty, if_neg hempty]
    by_cases hseen : f.label ∈ seen
    · rw [if_pos hseen, if_pos hseen]
    rw [if_neg hseen, if_neg hseen, hf]
    cases hanswer : Schema.checkField f n with
    | error e => rfl
    | ok u => exact ih hfs

/-- **The count of levels never leaves its range**: the check on integers without bounds has
an answer for every schema and every ceiling of 32 bits, and it is the answer of the check
on words. -/
theorem check_eq_some_check (schema : Schema) (ceiling : Int32) :
    check schema ceiling.toInt = some (Schema.check schema ceiling) := by
  induction schema using levelInduction generalizing ceiling with
  | level fields ih =>
    refine withinDepth_toInt fun hceiling => checkFields_eq_some fun f hf => ?_
    exact checkField_eq_some hceiling (ih f hf (ceiling - 1))

end Schema.Exact

end ConfigSchema
