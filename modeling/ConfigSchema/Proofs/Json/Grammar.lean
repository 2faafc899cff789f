/-!
# The grammar of documents

What a well-formed document is, as a text and not as what a reader accepts. The parts of a document
are texts themselves: the body of a string between its quotes
(`ConfigSchema.Json.Grammar.IsStringBody`), a number, the elements and members between brackets,
each with spaces around it (`ConfigSchema.Json.Grammar.Bracketed`), and altogether a value
(`ConfigSchema.Json.Grammar.IsValue`).

A well-formed string need not stand for a text: its escapes may be surrogates without a partner.
Where it does, the text is said by `ConfigSchema.Json.Grammar.Spells`. A key has to spell its name,
and one name can be spelled in many ways.

The layout of a list of parts is a relation rather than a function, since the spaces between the
parts are free. So two texts that are laid out from the same parts differ in their spaces at most.
-/

namespace ConfigSchema.Json.Grammar

/-! ### Spaces -/

/-- The characters are spaces, all of them. -/
def IsSpaces (ws : List Char) : Prop := ∀ c ∈ ws, c ∈ [' ', '\t', '\n', '\r']

theorem isSpaces_nil : IsSpaces [] := fun _ h => by cases h

/-! ### Strings -/

/-- The character is a digit in base sixteen, of either case. -/
def IsHexDigit (c : Char) : Prop :=
  c ∈ ['0', '1', '2', '3', '4', '5', '6', '7', '8', '9',
    'a', 'b', 'c', 'd', 'e', 'f', 'A', 'B', 'C', 'D', 'E', 'F']

/-- The value of a digit in base sixteen. -/
def hexValue (c : Char) : Nat :=
  if c.isDigit then c.toNat - '0'.toNat
  else if 'a' ≤ c then c.toNat - 'a'.toNat + 10
  else c.toNat - 'A'.toNat + 10

/-- The letters that may follow a backslash, and what they stand for. -/
def letters : List (Char × Char) :=
  [('"', '"'), ('\\', '\\'), ('/', '/'), ('b', '\x08'), ('f', '\x0c'), ('n', '\n'), ('r', '\r'),
    ('t', '\t')]

/-- **Four digits in base sixteen**, and their value. -/
inductive IsUnit : List Char → Nat → Prop
  /-- The digits, the highest one first. -/
  | mk {a b c d : Char} (first : IsHexDigit a) (second : IsHexDigit b) (third : IsHexDigit c)
      (fourth : IsHexDigit d) :
    IsUnit [a, b, c, d] (((hexValue a * 16 + hexValue b) * 16 + hexValue c) * 16 + hexValue d)

/-- A character that stands in a string for itself. -/
structure IsPlain (c : Char) : Prop where
  /-- It is no control character. -/
  not_control : ¬ c.toNat < 0x20
  /-- It does not end the string. -/
  ne_quote : c ≠ '"'
  /-- It does not begin an escape. -/
  ne_backslash : c ≠ '\\'

/-- **What stands between the quotes of a string.** -/
inductive IsStringBody : List Char → Prop
  /-- Nothing. -/
  | nil : IsStringBody []
  /-- A character that stands for itself. -/
  | plain {c : Char} {body : List Char} (plain : IsPlain c) (rest : IsStringBody body) :
    IsStringBody (c :: body)
  /-- An escape of one letter. -/
  | letter {entry : Char × Char} {body : List Char} (mem : entry ∈ letters)
      (rest : IsStringBody body) : IsStringBody ('\\' :: entry.1 :: body)
  /-- An escape of four digits. -/
  | unit {digits body : List Char} {n : Nat} (unit : IsUnit digits n) (rest : IsStringBody body) :
    IsStringBody ('\\' :: 'u' :: digits ++ body)

/-- **The text that a string stands for**: an escape of four digits is a character, or two of them
are, as a pair of surrogates. -/
inductive Spells : List Char → List Char → Prop
  /-- Nothing. -/
  | nil : Spells [] []
  /-- A character that stands for itself. -/
  | plain {c : Char} {body text : List Char} (plain : IsPlain c) (rest : Spells body text) :
    Spells (c :: body) (c :: text)
  /-- An escape of one letter. -/
  | letter {entry : Char × Char} {body text : List Char} (mem : entry ∈ letters)
      (rest : Spells body text) : Spells ('\\' :: entry.1 :: body) (entry.2 :: text)
  /-- A character by its number, which is no surrogate. -/
  | unit {digits body text : List Char} {n : Nat} (unit : IsUnit digits n)
      (not_surrogate : n < 0xD800 ∨ 0xE000 ≤ n) (rest : Spells body text) :
    Spells ('\\' :: 'u' :: digits ++ body) (Char.ofNat n :: text)
  /-- A character by a pair of surrogates. -/
  | pair {digits digits' body text : List Char} {n n' : Nat} (leading : IsUnit digits n)
      (trailing : IsUnit digits' n') (isLeading : 0xD800 ≤ n ∧ n < 0xDC00)
      (isTrailing : 0xDC00 ≤ n' ∧ n' < 0xE000) (rest : Spells body text) :
    Spells ('\\' :: 'u' :: digits ++ ('\\' :: 'u' :: digits' ++ body))
      (Char.ofNat (0x10000 + (n - 0xD800) * 0x400 + (n' - 0xDC00)) :: text)

/-- What stands for a text is well formed. -/
theorem Spells.isStringBody {body text : List Char} (h : Spells body text) :
    IsStringBody body := by
  induction h with
  | nil => exact .nil
  | plain hplain _ ih => exact .plain hplain ih
  | letter hmem _ ih => exact .letter hmem ih
  | unit hunit _ _ ih => exact .unit hunit ih
  | pair hleading htrailing _ _ _ ih => exact .unit hleading (.unit htrailing ih)

/-! ### Numbers -/

/-- Digits, at least one. -/
def IsDigits (ds : List Char) : Prop := ds ≠ [] ∧ ∀ c ∈ ds, c.isDigit = true

/-- The digits before the point: a zero stands alone. -/
def IsWhole (ds : List Char) : Prop := IsDigits ds ∧ (ds.head? = some '0' → ds = ['0'])

/-- A fraction, or none. -/
inductive IsFraction : List Char → Prop
  /-- There is no point. -/
  | none : IsFraction []
  /-- A point and digits. -/
  | some {ds : List Char} (digits : IsDigits ds) : IsFraction ('.' :: ds)

/-- An exponent, or none. -/
inductive IsExponent : List Char → Prop
  /-- There is no exponent. -/
  | none : IsExponent []
  /-- A letter, a sign if there is one, and digits. -/
  | some {e : Char} {sign ds : List Char} (letter : e ∈ ['e', 'E'])
      (sign_mem : sign ∈ [[], ['+'], ['-']]) (digits : IsDigits ds) : IsExponent (e :: sign ++ ds)

/-- **A number**, after its sign. -/
inductive IsUnsigned : List Char → Prop
  /-- Digits, fraction and exponent. -/
  | mk {whole fraction exponent : List Char} (isWhole : IsWhole whole)
      (isFraction : IsFraction fraction) (isExponent : IsExponent exponent) :
    IsUnsigned (whole ++ (fraction ++ exponent))

/-! ### Layout -/

section Layout

variable {α : Type}

/-- Parts in a row, with commas between them. -/
inductive Joined (part : α → List Char → Prop) : List α → List Char → Prop
  /-- The last part. -/
  | one {a : α} {text : List Char} (isPart : part a text) : Joined part [a] text
  /-- A part before others. -/
  | more {a : α} {as : List α} {text rest : List Char} (isPart : part a text)
      (more : Joined part as rest) : Joined part (a :: as) (text ++ ',' :: rest)

/-- **Parts between brackets**: nothing but spaces, or parts with commas between them. -/
inductive Bracketed (opening closing : Char) (part : α → List Char → Prop) :
    List α → List Char → Prop
  /-- There are no parts. -/
  | empty {ws : List Char} (spaces : IsSpaces ws) :
    Bracketed opening closing part [] (opening :: ws ++ [closing])
  /-- There are parts. -/
  | parts {as : List α} {text : List Char} (joined : Joined part as text) :
    Bracketed opening closing part as (opening :: text ++ [closing])

end Layout

/-- An element of an array, with spaces around it. -/
inductive IsElement : List Char → List Char → Prop
  /-- The spaces before and after. -/
  | mk {value before after : List Char} (spaces : IsSpaces before) (spaces' : IsSpaces after) :
    IsElement value (before ++ value ++ after)

/-- A member of an object, by its key between quotes and its value, with spaces everywhere. -/
inductive IsMember : List Char × List Char → List Char → Prop
  /-- The spaces around the key and around the value. -/
  | mk {key value beforeKey behindKey beforeValue behindValue : List Char}
      (spacesBeforeKey : IsSpaces beforeKey) (spacesBehindKey : IsSpaces behindKey)
      (spacesBeforeValue : IsSpaces beforeValue) (spacesBehindValue : IsSpaces behindValue) :
    IsMember (key, value)
      (beforeKey ++ '"' ::
        (key ++ '"' :: (behindKey ++ ':' :: (beforeValue ++ value ++ behindValue))))

/-- The array of elements. -/
abbrev IsArray : List (List Char) → List Char → Prop := Bracketed '[' ']' IsElement

/-- The object of members. -/
abbrev IsObject : List (List Char × List Char) → List Char → Prop :=
  Bracketed '\x7b' '\x7d' IsMember

/-! ### Values -/

/-- **A well-formed value.** -/
inductive IsValue : List Char → Prop
  /-- The null value. -/
  | null : IsValue ['n', 'u', 'l', 'l']
  /-- The value true. -/
  | true : IsValue ['t', 'r', 'u', 'e']
  /-- The value false. -/
  | false : IsValue ['f', 'a', 'l', 's', 'e']
  /-- A number without a sign. -/
  | number {text : List Char} (unsigned : IsUnsigned text) : IsValue text
  /-- A number with a minus. -/
  | negative {text : List Char} (unsigned : IsUnsigned text) : IsValue ('-' :: text)
  /-- A string. -/
  | string {body : List Char} (isBody : IsStringBody body) : IsValue ('"' :: body ++ ['"'])
  /-- An array of values. -/
  | array {items : List (List Char)} {text : List Char} (layout : IsArray items text)
      (values : ∀ value ∈ items, IsValue value) : IsValue text
  /-- An object of values, under keys. -/
  | object {members : List (List Char × List Char)} {text : List Char}
      (layout : IsObject members text) (keys : ∀ m ∈ members, IsStringBody m.1)
      (values : ∀ m ∈ members, IsValue m.2) : IsValue text

/-- A well-formed array, by its elements. -/
structure ArrayOf (items : List (List Char)) (text : List Char) : Prop where
  /-- The elements are laid out as an array. -/
  layout : IsArray items text
  /-- They are values. -/
  values : ∀ value ∈ items, IsValue value

/-- A well-formed object, by its keys and values. -/
structure ObjectOf (members : List (List Char × List Char)) (text : List Char) : Prop where
  /-- The members are laid out as an object. -/
  layout : IsObject members text
  /-- The keys are strings. -/
  keys : ∀ m ∈ members, IsStringBody m.1
  /-- The values are values. -/
  values : ∀ m ∈ members, IsValue m.2

variable {text : List Char}

theorem ArrayOf.isValue {items : List (List Char)} (h : ArrayOf items text) : IsValue text :=
  .array h.layout h.values

theorem ObjectOf.isValue {members : List (List Char × List Char)} (h : ObjectOf members text) :
    IsValue text :=
  .object h.layout h.keys h.values

end ConfigSchema.Json.Grammar
