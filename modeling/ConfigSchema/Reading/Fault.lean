import ConfigSchema.Decimal.Layout
import ConfigSchema.Definition.Basic
import ConfigSchema.Json.Basic
import ConfigSchema.Text.Diagnostic
import ConfigSchema.Text.Position

/-!
# What can be wrong with a document

Reading stops at the first fault. A fault (`ConfigSchema.Reading.Fault`) is either one of
the syntax of JSON, or one of what is read into: a value of another type than the one
expected, a member that is missing or given twice, too many or too few members of a
structure that is given as an array, a name that is not among those allowed, or a definition
whose schema is not well formed.

The text of a fault says what is wrong and never where. A message that happens to end in
what looks like a place loses that end (`ConfigSchema.Text.withoutPosition`), which
can only happen to the names that a definition brings along.
-/

namespace ConfigSchema.Reading

/-- How a value begins: completely, unless it is an array or an object, of which only the
opening bracket is known. -/
inductive Lexeme where
  /-- The null value. -/
  | null
  /-- A truth value. -/
  | boolean (value : Bool)
  /-- A number. -/
  | number (value : Json.Number)
  /-- A string. -/
  | string (value : String)
  /-- The opening bracket of an array. -/
  | array
  /-- The opening brace of an object. -/
  | object
  deriving DecidableEq, Repr, Inhabited

/-- How floating point numbers are laid out in the text of a fault: positionally from
`0.00001` to below `10 ^ 16`, otherwise with an exponent that always has a sign, and of two
equally near decimals the one with an even last digit. -/
def floatLayout : Layout where
  tie := .toEven
  least := -5
  greatest := 15
  plus := true

example : floatLayout.write ⟨0x4341c37937e08000⟩ = "1e+16" := by decide +kernel
example : floatLayout.write ⟨0x3ee4f8b588e368f1⟩ = "0.00001" := by decide +kernel

namespace Lexeme

/-- How the text of a fault names an integer. -/
def describeInteger (n : Int) : String := "integer `" ++ toString n ++ "`"

/-- How the text of a fault names what was found. -/
def describe : Lexeme → String
  | .null => "null"
  | .boolean value => "boolean `" ++ Text.truth value ++ "`"
  | .number (.natural n) => describeInteger n.toNat
  | .number (.negative n) => describeInteger n.toInt
  | .number (.float x) => "floating point `" ++ floatLayout.write x ++ "`"
  | .string value => "string " ++ Text.quoted value
  | .array => "sequence"
  | .object => "map"

/-- How the value of a tree begins. -/
def ofTree : Json.Tree → Lexeme
  | .null => .null
  | .boolean value => .boolean value
  | .number value => .number value
  | .string value => .string value
  | .array _ => .array
  | .object _ => .object

end Lexeme

/-- What is wrong with a document. -/
inductive Fault where
  /-- The input ends where a value has to follow. -/
  | endInValue
  /-- The input ends inside an array. -/
  | endInList
  /-- The input ends inside an object. -/
  | endInObject
  /-- The input ends inside a string. -/
  | endInString
  /-- Something else stands where a value should. -/
  | expectedValue
  /-- One of the three words is misspelt. -/
  | expectedWord
  /-- Something else stands where a colon should. -/
  | expectedColon
  /-- An element is followed neither by a comma nor by the end of the array. -/
  | expectedCommaOrListEnd
  /-- A member is followed neither by a comma nor by the end of the object. -/
  | expectedCommaOrObjectEnd
  /-- A key is not a string. -/
  | keyNotString
  /-- A comma is followed by the end of the array or object. -/
  | trailingComma
  /-- Something follows after the end. -/
  | trailingCharacters
  /-- A number is misspelt. -/
  | invalidNumber
  /-- A number is too large for a floating point number. -/
  | numberOutOfRange
  /-- A control character stands in a string. -/
  | controlCharacter
  /-- An escape of a string is misspelt. -/
  | invalidEscape
  /-- A surrogate stands where it pairs with nothing before or after it. -/
  | loneSurrogate
  /-- The first half of a pair of surrogates is not followed by an escape. -/
  | missingSurrogate
  /-- The bytes of a string are not those of a text. -/
  | invalidText
  /-- Arrays and objects are nested too deep. -/
  | tooDeep
  /-- A value of another type than the one expected. -/
  | invalidType (found : Lexeme) (expected : String)
  /-- An integer of the right type, out of range. -/
  | integerOutOfRange (found : Int) (expected : String)
  /-- An object where it should have exactly one member. -/
  | notSingleMember
  /-- A member that is needed is absent. -/
  | missingField (name : String)
  /-- A member is given twice. -/
  | duplicateField (name : String)
  /-- An array with the wrong number of elements. -/
  | invalidLength (found : Nat) (expected : String)
  /-- A name that is not the name of a kind. -/
  | unknownKind (name : String)
  /-- All members were read, but they make no definition. -/
  | rejected (cause : DefinitionError)
  deriving DecidableEq, Repr, Inhabited

namespace Fault

/-- **The text of a fault**, without the place where it was found. -/
def message : Fault → String
  | .endInValue => "EOF while parsing a value"
  | .endInList => "EOF while parsing a list"
  | .endInObject => "EOF while parsing an object"
  | .endInString => "EOF while parsing a string"
  | .expectedValue => "expected value"
  | .expectedWord => "expected ident"
  | .expectedColon => "expected `:`"
  | .expectedCommaOrListEnd => "expected `,` or `]`"
  | .expectedCommaOrObjectEnd => "expected `,` or `\x7d`"
  | .keyNotString => "key must be a string"
  | .trailingComma => "trailing comma"
  | .trailingCharacters => "trailing characters"
  | .invalidNumber => "invalid number"
  | .numberOutOfRange => "number out of range"
  | .controlCharacter =>
    "control character (\\u0000-\\u001F) found while parsing a string"
  | .invalidEscape => "invalid escape"
  | .loneSurrogate => "lone leading surrogate in hex escape"
  | .missingSurrogate => "unexpected end of hex escape"
  | .invalidText => "invalid unicode code point"
  | .tooDeep => "recursion limit exceeded"
  | .invalidType found expected =>
    "invalid type: " ++ found.describe ++ ", expected " ++ expected
  | .integerOutOfRange found expected =>
    "invalid value: " ++ Lexeme.describeInteger found ++ ", expected " ++ expected
  | .notSingleMember => "invalid value: map, expected map with a single key"
  | .missingField name => "missing field `" ++ name ++ "`"
  | .duplicateField name => "duplicate field `" ++ name ++ "`"
  | .invalidLength found expected =>
    "invalid length " ++ toString found ++ ", expected " ++ expected
  | .unknownKind name =>
    "unknown variant `" ++ name ++ "`, expected `source` or `destination`"
  | .rejected cause => String.ofList (Text.withoutPosition cause.message.toList)

end Fault

end ConfigSchema.Reading
