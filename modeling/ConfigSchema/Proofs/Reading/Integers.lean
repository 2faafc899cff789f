import ConfigSchema.Proofs.Payload.Verdict
import ConfigSchema.Proofs.Reading.Places
import Mathlib.Algebra.Group.Int.Defs
import Mathlib.Algebra.Group.Nat.Defs

/-!
# What becomes of an integer in a document

A number that is written without fraction and exponent is an integer, of any size. Between the
text and the value it passes two gates. The reader asks whether 64 bits hold it, with a sign
if there is a minus and without one otherwise, and rounds it to a floating point number if
not; a zero with a minus is rounded, too, since no integer has a sign of its own. The decoder
then asks whether 64 bits with a sign hold what the reader has left as an integer, and keeps
the others as unsupported.

So there are three ranges (`ConfigSchema.Reading.NumberLiteral.fits_cases`), and the middle one
alone is reported: an integer beyond `2 ^ 64` or below `-2 ^ 63` is taken for a floating point
number without notice, by fields as well.
-/

namespace ConfigSchema

namespace Reading

namespace NumberLiteral

/-! ### Literals of integers -/

variable {l : NumberLiteral}

/-- The literal is that of an integer: it has no fraction and no exponent. -/
def IsInteger (l : NumberLiteral) : Prop := l.fraction = none ∧ l.exponent = none

/-- The integer that is written. -/
def integer (l : NumberLiteral) : Int :=
  if l.negative then -(ofDigits l.whole : Int) else ofDigits l.whole

/-- The literal is a zero with a minus. -/
def IsMinusZero (l : NumberLiteral) : Prop := l.negative = true ∧ l.integer = 0

/-- The integer is held by 64 bits with a sign, and is no zero with a minus. -/
def FitsSigned (l : NumberLiteral) : Prop :=
  -2 ^ 63 ≤ l.integer ∧ l.integer < 2 ^ 63 ∧ ¬ l.IsMinusZero

/-- The integer is held by 64 bits without a sign only. -/
def FitsUnsigned (l : NumberLiteral) : Prop := 2 ^ 63 ≤ l.integer ∧ l.integer < 2 ^ 64

/-- The integer is not held by 64 bits at all, or is a zero with a minus. -/
def FitsNeither (l : NumberLiteral) : Prop :=
  l.integer < -2 ^ 63 ∨ 2 ^ 64 ≤ l.integer ∨ l.IsMinusZero

instance : Decidable l.IsInteger := inferInstanceAs (Decidable (_ ∧ _))
instance : Decidable l.IsMinusZero := inferInstanceAs (Decidable (_ ∧ _))
instance : Decidable l.FitsSigned := inferInstanceAs (Decidable (_ ∧ _ ∧ ¬ _))
instance : Decidable l.FitsUnsigned := inferInstanceAs (Decidable (_ ∧ _))
instance : Decidable l.FitsNeither := inferInstanceAs (Decidable (_ ∨ _ ∨ _))

/-- **Every integer is in one of the three ranges.** -/
theorem fits_cases (l : NumberLiteral) : l.FitsSigned ∨ l.FitsUnsigned ∨ l.FitsNeither := by
  by_cases hzero : l.IsMinusZero
  · exact .inr (.inr (.inr (.inr hzero)))
  · simp only [FitsSigned, FitsUnsigned, FitsNeither, hzero, not_false_eq_true, and_true,
      or_false]
    omega

/-! No integer is in two of them. -/

theorem FitsSigned.not_fitsNeither (h : l.FitsSigned) : ¬ l.FitsNeither := by
  rintro (hleast | hgreatest | hzero)
  · exact absurd h.1 (by omega)
  · exact absurd h.2.1 (by omega)
  · exact h.2.2 hzero

theorem FitsUnsigned.not_fitsSigned (h : l.FitsUnsigned) : ¬ l.FitsSigned := by
  rintro ⟨-, hgreatest, -⟩
  exact absurd h.1 (by omega)

theorem FitsUnsigned.not_fitsNeither (h : l.FitsUnsigned) : ¬ l.FitsNeither := by
  obtain ⟨hleast, hgreatest⟩ := h
  rintro (hbelow | habove | ⟨-, hzero⟩) <;> omega

/-! ### Their values -/

theorem integer_of_negative (h : l.negative = true) : l.integer = -(ofDigits l.whole : Int) :=
  if_pos h

theorem integer_of_not_negative (h : l.negative = false) : l.integer = ofDigits l.whole := by
  rw [integer, h]
  rfl

/-- With a minus, an integer is rounded unless 64 bits with a sign hold it, and it is no zero. -/
theorem value_of_negative (hinteger : l.IsInteger) (h : l.negative = true) :
    l.value =
      if 0 < ofDigits l.whole ∧ ofDigits l.whole ≤ Nat.pow 2 63 then
        .ok (.negative (Int64.ofInt (-(ofDigits l.whole : Int))))
      else l.floatValue := by
  rw [value, hinteger.1, hinteger.2, h]
  rfl

/-- Without a minus, an integer is rounded unless 64 bits without a sign hold it. -/
theorem value_of_not_negative (hinteger : l.IsInteger) (h : l.negative = false) :
    l.value =
      if ofDigits l.whole < Nat.pow 2 64 then .ok (.natural (ofDigits l.whole).toUInt64)
      else l.floatValue := by
  rw [value, hinteger.1, hinteger.2, h]
  rfl

/-- What is rounded is a floating point number. -/
theorem exists_float_of_floatValue {n : Json.Number} (h : l.floatValue = .ok n) :
    ∃ x, n = .float x := by
  obtain ⟨x, -, hx⟩ := Outcome.bind_eq_ok_iff.mp h
  cases hx
  exact ⟨_, rfl⟩

variable {n : Json.Number}

/-- What the decoder makes of an integer without a sign. -/
theorem ofNumber_natural {k : Nat} (h : k < Nat.pow 2 64) :
    Value.ofNumber (.natural k.toUInt64) =
      if k < Nat.pow 2 63 then .integer (Int64.ofNat k)
      else .unsupported Value.unsignedInteger := by
  have hnat : k.toUInt64.toNat = k := UInt64.toNat_ofNat_of_lt' h
  rw [Value.ofNumber, hnat]
  rfl

/-- **In the signed range the integer is kept**, with its exact value. -/
theorem exists_ofNumber_eq_integer (hinteger : l.IsInteger) (hvalue : l.value = .ok n)
    (hfits : l.FitsSigned) : ∃ i, Value.ofNumber n = .integer i ∧ i.toInt = l.integer := by
  obtain ⟨hleast, hgreatest, hsign⟩ := hfits
  cases hnegative : l.negative with
  | true =>
    have hne : l.integer ≠ 0 := fun hzero => hsign ⟨hnegative, hzero⟩
    rw [integer_of_negative hnegative] at hleast hne ⊢
    rw [value_of_negative hinteger hnegative, if_pos (by simp only [Nat.pow_eq]; omega)] at hvalue
    cases hvalue
    exact ⟨_, rfl, Int64.toInt_ofInt_of_le hleast (by omega)⟩
  | false =>
    rw [integer_of_not_negative hnegative] at hgreatest ⊢
    have hlt : ofDigits l.whole < Nat.pow 2 63 := by
      simp only [Nat.pow_eq]
      omega
    have hheld : ofDigits l.whole < Nat.pow 2 64 := Nat.lt_trans hlt (by decide)
    rw [value_of_not_negative hinteger hnegative, if_pos hheld] at hvalue
    cases hvalue
    rw [ofNumber_natural hheld, if_pos hlt]
    exact ⟨_, rfl, Int64.toInt_ofNat_of_lt hlt⟩

/-- **Above it, up to `2 ^ 64`, the integer is reported** as unsupported. -/
theorem ofNumber_eq_unsupported (hinteger : l.IsInteger) (hvalue : l.value = .ok n)
    (hfits : l.FitsUnsigned) : Value.ofNumber n = .unsupported Value.unsignedInteger := by
  obtain ⟨hleast, hgreatest⟩ := hfits
  cases hnegative : l.negative with
  | true =>
    rw [integer_of_negative hnegative] at hleast
    omega
  | false =>
    rw [integer_of_not_negative hnegative] at hleast hgreatest
    have hheld : ofDigits l.whole < Nat.pow 2 64 := by
      simp only [Nat.pow_eq]
      omega
    rw [value_of_not_negative hinteger hnegative, if_pos hheld] at hvalue
    cases hvalue
    rw [ofNumber_natural hheld, if_neg (by simp only [Nat.pow_eq]; omega)]

/-- **All other integers become floating point numbers.** -/
theorem exists_ofNumber_eq_float (hinteger : l.IsInteger) (hvalue : l.value = .ok n)
    (hfits : l.FitsNeither) : ∃ x, Value.ofNumber n = .float x := by
  have hfloat : l.floatValue = .ok n := by
    cases hnegative : l.negative with
    | true =>
      have hrange : l.integer < -2 ^ 63 ∨ 2 ^ 64 ≤ l.integer ∨ l.integer = 0 :=
        hfits.imp_right fun h => h.imp_right And.right
      rw [integer_of_negative hnegative] at hrange
      rwa [value_of_negative hinteger hnegative,
        if_neg (by simp only [Nat.pow_eq]; omega)] at hvalue
    | false =>
      have hsign : ¬ l.IsMinusZero := fun hzero => by
        rw [IsMinusZero, hnegative] at hzero
        cases hzero.1
      have hrange : l.integer < -2 ^ 63 ∨ 2 ^ 64 ≤ l.integer :=
        hfits.imp_right fun h => h.resolve_right hsign
      rw [integer_of_not_negative hnegative] at hrange
      rwa [value_of_not_negative hinteger hnegative,
        if_neg (by simp only [Nat.pow_eq]; omega)] at hvalue
  obtain ⟨x, rfl⟩ := exists_float_of_floatValue hfloat
  exact ⟨x, rfl⟩

end NumberLiteral

/-! ### Literals in a text -/

/-- The literal of a number. -/
def Spelled.literal? : Spelled → Option NumberLiteral
  | .number n => some n.literal
  | _ => none

/-- **The literal at a place of a text**, if the text is a document and has a number there. -/
def literalAt? (s : Input) (place : List Json.Step) : Option NumberLiteral :=
  match readAll (spelled maxNesting) s with
  | .ok w => (w.at? place).bind Spelled.literal?
  | .error _ => none

variable {s : Input} {place : List Json.Step} {l : NumberLiteral}

theorem literalAt?_eq {w : Spelled} (h : readAll (spelled maxNesting) s = .ok w) :
    literalAt? s place = (w.at? place).bind Spelled.literal? := by
  rw [literalAt?, h]

/-- **The value at a place is the value of the literal that is written there.** -/
theorem exists_value_of_literalAt? (h : literalAt? s place = some l) :
    ∃ j n, readTree s = .ok j ∧ l.value = .ok n ∧
      (Value.ofJson j).at? place = some (Value.ofNumber n) := by
  rw [literalAt?] at h
  split at h
  · next w hread =>
    obtain ⟨below, hbelow, hliteral⟩ := Option.bind_eq_some_iff.mp h
    cases below with
    | number n =>
      obtain rfl := Option.some.inj hliteral
      have htree : readTree s = .ok w.parsed.tree := by
        rw [readTree_eq_map_readAll_spelled, hread]
        rfl
      have hat := Spelled.at?_value place w
      rw [hbelow] at hat
      exact ⟨w.parsed.tree, n.value, htree, n.value_eq, hat⟩
    | _ => cases hliteral
  · cases h

/-- **Every number in the value of a text has a literal**: nothing else is decoded to a number,
or to what is unsupported. -/
theorem exists_literalAt?_of_value {j : Json.Tree} {v : Value} (hread : readTree s = .ok j)
    (hat : (Value.ofJson j).at? place = some v)
    (hkind : v.kind = .integer ∨ v.kind = .float ∨ ∃ name, v.kind = .unsupported name) :
    ∃ l, literalAt? s place = some l := by
  rw [readTree_eq_map_readAll_spelled] at hread
  obtain ⟨w, hspelled, rfl⟩ := Outcome.map_eq_ok_iff.mp hread
  have hvalue := (Spelled.at?_value place w).symm.trans hat
  obtain ⟨below, hbelow, rfl⟩ := Option.map_eq_some_iff.mp hvalue
  rw [literalAt?_eq hspelled, hbelow]
  cases below with
  | number n => exact ⟨n.literal, rfl⟩
  | _ => simp [Spelled.value, Spelled.parsed, Json.Parsed.tree, Value.ofJson, Value.kind] at hkind

end Reading

/-! ### Fields -/

/-- **A declared type takes an integer literal**: `int` those that stay integers, `float` and
`decimal` those that do not and are not reported either. -/
def FieldType.TakesLiteral (type : FieldType) (l : Reading.NumberLiteral) : Prop :=
  (type = .int ∧ l.FitsSigned) ∨ ((type = .float ∨ type = .decimal) ∧ l.FitsNeither)

namespace Reading

variable {s : Input} {place : List Json.Step} {l : NumberLiteral}

/-- The check of a value that is written as an integer is about the range of the integer. -/
theorem checkOne_ofNumber_eq_ok_iff {n : Json.Number} {f : Field} (hinteger : l.IsInteger)
    (hvalue : l.value = .ok n) :
    Payload.checkOne f (Value.ofNumber n) = .ok () ↔ f.type.TakesLiteral l := by
  rw [Payload.checkOne, Payload.checkValue_eq_ok_iff, FieldType.TakesLiteral]
  rcases l.fits_cases with hfits | hfits | hfits
  · obtain ⟨i, hi, -⟩ := NumberLiteral.exists_ofNumber_eq_integer hinteger hvalue hfits
    have hnot := hfits.not_fitsNeither
    rw [hi]
    cases f.type <;> simp [FieldType.accepts, Value.kind, hfits, hnot]
  · have hunsupported := NumberLiteral.ofNumber_eq_unsupported hinteger hvalue hfits
    have hnot := hfits.not_fitsSigned
    have hnot' := hfits.not_fitsNeither
    rw [hunsupported]
    cases f.type <;> simp [FieldType.accepts, Value.kind, hnot, hnot']
  · obtain ⟨x, hx⟩ := NumberLiteral.exists_ofNumber_eq_float hinteger hvalue hfits
    have hnot : ¬ l.FitsSigned := fun h => h.not_fitsNeither hfits
    rw [hx]
    cases f.type <;> simp [FieldType.accepts, Value.kind, hfits, hnot]

/-- **What becomes of an integer that is written in a text**, at any place: below `2 ^ 63` and
from `-2 ^ 63` on it is an integer of that value, unless it is a zero with a minus; up to
`2 ^ 64` it is unsupported; and otherwise, the zero with a minus included, it is a floating
point number. A field that is declared `int` accepts the first of these, one that is declared
`float` or `decimal` the last, and no other field accepts any. -/
theorem integer_literals_decoded (h : literalAt? s place = some l) (hinteger : l.IsInteger) :
    ∃ j v, readTree s = .ok j ∧ (Value.ofJson j).at? place = some v ∧
      (l.FitsSigned → ∃ i, v = .integer i ∧ i.toInt = l.integer) ∧
      (l.FitsUnsigned → v = .unsupported Value.unsignedInteger) ∧
      (l.FitsNeither → ∃ x, v = .float x) ∧
      (∀ (f : Field) (payload : Payload), f.isArray = false →
        Keyed.get? f.label payload = some v →
          (Payload.checkField f payload = .ok () ↔ f.type.TakesLiteral l)) ∧
      (∀ (f : Field) (payload : Payload) (items : List Value), f.isArray = true →
        Keyed.get? f.label payload = some (.list items) → v ∈ items →
          Payload.checkField f payload = .ok () → f.type.TakesLiteral l) := by
  obtain ⟨j, n, hread, hvalue, hat⟩ := exists_value_of_literalAt? h
  refine ⟨j, Value.ofNumber n, hread, hat,
    NumberLiteral.exists_ofNumber_eq_integer hinteger hvalue,
    NumberLiteral.ofNumber_eq_unsupported hinteger hvalue,
    NumberLiteral.exists_ofNumber_eq_float hinteger hvalue, ?_, ?_⟩
  · intro f payload hone hget
    rw [Payload.checkField_eq, hget, hone]
    exact checkOne_ofNumber_eq_ok_iff hinteger hvalue
  · intro f payload items harray hget hmem hcheck
    rw [Payload.checkField_eq, hget, harray] at hcheck
    obtain ⟨items', hitems, -, helements⟩ := Payload.checkArray_eq_ok_iff.mp hcheck
    cases hitems
    exact (checkOne_ofNumber_eq_ok_iff hinteger hvalue).mp (helements _ hmem)

/-- An integer in each of the three ranges, the last one a zero with a minus. -/
def threeIntegers : Input := .ofString "\x7b\"at\":[-7,9223372036854775808,-0]\x7d"

/-- The first of them stays an integer, the second is unsupported, and the third is a floating
point number. -/
theorem integer_literals_decoded_threeIntegers :
    ∃ j, readTree threeIntegers = .ok j ∧
      (∃ i : Int64, (Value.ofJson j).at? [.key "at", .element 0] = some (.integer i) ∧
        i.toInt = -7) ∧
      (Value.ofJson j).at? [.key "at", .element 1] =
        some (.unsupported Value.unsignedInteger) ∧
      ∃ x, (Value.ofJson j).at? [.key "at", .element 2] = some (.float x) := by
  have hkept : literalAt? threeIntegers [.key "at", .element 0] =
      some ⟨true, [7], none, none⟩ := by decide +kernel
  have hreported : literalAt? threeIntegers [.key "at", .element 1] =
      some ⟨false, [9, 2, 2, 3, 3, 7, 2, 0, 3, 6, 8, 5, 4, 7, 7, 5, 8, 0, 8], none, none⟩ := by
    decide +kernel
  have hrounded : literalAt? threeIntegers [.key "at", .element 2] =
      some ⟨true, [0], none, none⟩ := by decide +kernel
  obtain ⟨j, v, hread, hv, hinteger, -⟩ := integer_literals_decoded hkept ⟨rfl, rfl⟩
  obtain ⟨j₁, v₁, hread₁, hv₁, -, hunsupported, -⟩ :=
    integer_literals_decoded hreported ⟨rfl, rfl⟩
  obtain ⟨j₂, v₂, hread₂, hv₂, -, -, hfloat, -⟩ :=
    integer_literals_decoded hrounded ⟨rfl, rfl⟩
  obtain rfl : j = j₁ := Except.ok.inj (hread.symm.trans hread₁)
  obtain rfl : j = j₂ := Except.ok.inj (hread.symm.trans hread₂)
  obtain ⟨i, rfl, hi⟩ := hinteger (by decide)
  obtain rfl := hunsupported (by decide)
  obtain ⟨x, rfl⟩ := hfloat (by decide)
  exact ⟨j, hread, ⟨i, hv, hi⟩, hv₁, x, hv₂⟩

/-- **A zero with a minus changes its nature**: a field that is declared `float` accepts it, and
one that is declared `int` does not. -/
theorem minusZero_is_no_integer :
    let answer (type : FieldType) :=
      (readTree (.ofString "\x7b\"at\":-0\x7d")).map fun j =>
        (Payload.ofJson? j).map (Payload.check [⟨"at", type, true, false, []⟩])
    answer .float = .ok (some (.ok ())) ∧
      answer .int = .ok (some (.error (.typeMismatch "at" .int .float))) := by
  decide +kernel

/-- So does the first integer that 64 bits do not hold. -/
example :
    let answer (type : FieldType) :=
      (readTree (.ofString "\x7b\"at\":18446744073709551616\x7d")).map fun j =>
        (Payload.ofJson? j).map (Payload.check [⟨"at", type, true, false, []⟩])
    answer .decimal = .ok (some (.ok ())) := by
  decide +kernel

end Reading

end ConfigSchema
