import ConfigSchema.Proofs.Json.Floats
import ConfigSchema.Proofs.Payload.Skeleton

/-!
# Equal payloads

Values that are equal differ at most in the signs of their zeros. The check of a payload does not
look at numbers, so equal payloads get the same answer from it, the error included
(`ConfigSchema.Payload.check_eq_of_equal`).

Together with the laws of equality this says that equality is what its name promises, as long as
no word that is not a number is met (`ConfigSchema.Value.equality_away_from_nan`); and none is
met in what is read from a text.
-/

namespace ConfigSchema

namespace Payload

/-- Lists of values that are equal get the same answers, if equal values do. -/
theorem map_eq_of_equalItems {α : Type} {answer : Value → α}
    (hanswer : ∀ v w : Value, v.equal w = true → answer v = answer w) {items items' : List Value}
    (h : Value.equalItems items items' = true) : items.map answer = items'.map answer := by
  induction items generalizing items' with
  | nil =>
    cases items' with
    | nil => rfl
    | cons => cases h
  | cons v rest ih =>
    cases items' with
    | nil => cases h
    | cons w rest' =>
      obtain ⟨hvalue, hrest⟩ := Bool.and_eq_true_iff.mp h
      rw [List.map_cons, List.map_cons, hanswer v w hvalue, ih hrest]

/-- Equal values get the same answer at a field, if equal maps do below it. -/
theorem checkOne_eq_of_equal {f : Field}
    (hbelow : ∀ a b : Payload, a.equal b = true → check f.children a = check f.children b)
    {v w : Value} (h : v.equal w = true) : checkOne f v = checkOne f w := by
  refine checkValue_congr (Value.kind_eq_of_equal h) fun a b _ hv hw => hbelow a b ?_
  rw [hv, hw] at h
  exact h

/-- Equal payloads get the same answer at a field, if equal maps do below it. -/
theorem checkField_eq_of_equal {f : Field}
    (hbelow : ∀ a b : Payload, a.equal b = true → check f.children a = check f.children b)
    {a b : Payload} (h : a.equal b = true) : checkField f a = checkField f b := by
  have hone : ∀ v w : Value, v.equal w = true → checkOne f v = checkOne f w :=
    fun _ _ => checkOne_eq_of_equal hbelow
  rw [checkField_eq, checkField_eq]
  rcases get?_of_equal h f.label with ⟨ha, hb⟩ | ⟨v, w, ha, hb, hvalue⟩
  · rw [ha, hb]
  · have harray : checkArray f.label f.type f.required (checkOne f) v =
        checkArray f.label f.type f.required (checkOne f) w := by
      refine checkArray_congr (Value.kind_eq_of_equal hvalue) fun items items' hv hw => ?_
      rw [hv, hw] at hvalue
      exact map_eq_of_equalItems hone hvalue
    simp only [ha, hb, harray, hone v w hvalue]

/-- **Equal payloads get the same answer** from the check against any schema. -/
theorem check_eq_of_equal {schema : Schema} {a b : Payload} (h : a.equal b = true) :
    check schema a = check schema b := by
  induction schema using Schema.levelInduction generalizing a b with
  | level fields ih =>
    exact check_congr fun f hf => checkField_eq_of_equal (fun _ _ hbelow => ih f hf hbelow) h

end Payload

namespace Value

/-- **Equality of values is equality, away from words that are not numbers.** It is symmetric and
transitive, a value equals itself exactly if there is no such word in it, and equal values are of
one kind. The value of a tree of numbers equals itself, hence also that of every tree that is read
from a text. Maps, whose entries are sorted, are equal exactly if they are equal as maps, and equal
payloads get the same answer from every schema. -/
theorem equality_away_from_nan :
    (∀ a b : Value, a.equal b = b.equal a) ∧
    (∀ a b c : Value, a.equal b = true → b.equal c = true → a.equal c = true) ∧
    (∀ a : Value, a.equal a = true ↔ ∀ x ∈ a.floatsIn, x.isNaN = false) ∧
    (∀ a b : Value, a.equal b = true → a.kind = b.kind) ∧
    (∀ j : Json.Tree, j.AllNumbers Json.Number.IsNumber → (ofJson j).equal (ofJson j) = true) ∧
    (∀ (s : Reading.Input) (j : Json.Tree),
      Reading.readTree s = .ok j → (ofJson j).equal (ofJson j) = true) ∧
    (∀ a b : Payload, Keyed.Sorted a → Keyed.Sorted b →
      ((Value.map a).equal (.map b) = true ↔ a.EqualMaps b)) ∧
    (∀ (schema : Schema) (a b : Payload),
      a.equal b = true → Payload.check schema a = Payload.check schema b) :=
  ⟨equal_comm, fun _ _ _ => equal_trans, fun _ => equal_self_iff, fun _ _ => kind_eq_of_equal,
    fun _ => equal_self_ofJson, fun _ _ h => equal_self_ofJson (Json.Tree.allNumbers_of_readTree h),
    fun _ _ => Payload.equal_iff_equalMaps, fun _ _ _ => Payload.check_eq_of_equal⟩

/-- A map with a zero in a list with a fixed element kind, and a zero below a list. -/
def zeros (zero : Binary64) : Payload :=
  [("limits", .typedList (.floats [zero])), ("rates", .list [.map [("at", .float zero)]])]

/-- Both zeros make equal payloads, and each is refused for the kind of its zero. -/
theorem equality_away_from_nan_zeros :
    let a := zeros .zero
    let b := zeros Binary64.zero.negate
    let schema : Schema := [⟨"rates", .object, true, true, [⟨"at", .int, true, false, []⟩]⟩]
    a.equal b = true ∧ b.equal a = true ∧ Keyed.Sorted a ∧ Keyed.Sorted b ∧ a.EqualMaps b ∧
      Payload.check schema a = Payload.check schema b ∧
      Payload.check schema b = .error (.invalidArrayElement "rates" 0
        (.invalidObject "rates" (.typeMismatch "at" .int .float))) := by
  intro a b schema
  obtain ⟨hcomm, -, -, -, -, -, hmaps, hcheck⟩ := equality_away_from_nan
  have hequal : a.equal b = true := by decide +kernel
  have ha : Keyed.Sorted a := List.pairwise_pair.mpr (by decide)
  have hb : Keyed.Sorted b := List.pairwise_pair.mpr (by decide)
  have hswapped : b.equal a = true := (hcomm (.map b) (.map a)).trans hequal
  exact ⟨hequal, hswapped, ha, hb, (hmaps a b ha hb).mp hequal, hcheck schema a b hequal, rfl⟩

end Value

end ConfigSchema
