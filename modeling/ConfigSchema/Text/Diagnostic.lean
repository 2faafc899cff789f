/-!
# Text in diagnostics

A text that is shown inside a message or inside a larger value stands in double quotes, with
the quote, the backslash and the control characters escaped, so that it stays on one line
and its ends can be seen. All other characters stand for themselves.
-/

namespace ConfigSchema.Text

/-- The digits of a number in base sixteen, lower case, without padding. -/
def hexDigits (n : Nat) : List Char := Nat.toDigits 16 n

/-- A control character: below the space, or from the delete character to the end of the
second block of controls. -/
def isControl (c : Char) : Bool := c.toNat < 0x20 || (0x7f ≤ c.toNat && c.toNat < 0xa0)

/-- What is written for one character between quotes. -/
def quoteChar (c : Char) : List Char :=
  match c with
  | '"' => ['\\', '"']
  | '\\' => ['\\', '\\']
  | '\n' => ['\\', 'n']
  | '\r' => ['\\', 'r']
  | '\t' => ['\\', 't']
  | '\x00' => ['\\', '0']
  | c => if isControl c then ['\\', 'u', '\x7b'] ++ hexDigits c.toNat ++ ['\x7d'] else [c]

/-- A text in double quotes. -/
def quoted (text : String) : String :=
  String.ofList ('"' :: (text.toList.flatMap quoteChar ++ ['"']))

/-! ### Words and lists -/

/-- A truth value as a word. -/
def truth (b : Bool) : String := if b then "true" else "false"

/-- The texts of the parts, separated by a comma and a space, between two brackets. -/
def enclosed (opening : String) (parts : List String) (closing : String) : String :=
  opening ++ String.intercalate ", " parts ++ closing

/-! ### Examples -/

example : quoted "a\"b\\" = "\"a\\\"b\\\\\"" := by decide +kernel
example : quoted "\x1b\x7f'é" = "\"\\u\x7b1b\x7d\\u\x7b7f\x7d'é\"" := by decide +kernel

end ConfigSchema.Text
