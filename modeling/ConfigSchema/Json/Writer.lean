/-!
# Writing JSON text

JSON text is written without spaces, as a list of characters. In a string the quote, the
backslash and the characters below the space are escaped, by a short escape where there is
one and by four digits otherwise; all others, the slash and the delete character among
them, stand for themselves.
-/

namespace ConfigSchema.Json

/-- A digit in base sixteen, lower case. -/
def hexDigit (n : Nat) : Char := Nat.digitChar n

/-- What is written for one character of a string. -/
def escapeChar (c : Char) : List Char :=
  match c with
  | '"' => ['\\', '"']
  | '\\' => ['\\', '\\']
  | '\x08' => ['\\', 'b']
  | '\x0c' => ['\\', 'f']
  | '\n' => ['\\', 'n']
  | '\r' => ['\\', 'r']
  | '\t' => ['\\', 't']
  | c =>
    if c.toNat < 0x20 then
      ['\\', 'u', '0', '0', hexDigit (c.toNat / 16), hexDigit (c.toNat % 16)]
    else [c]

/-- A string, in quotes. -/
def writeString (s : String) : List Char :=
  '"' :: (s.toList.flatMap escapeChar ++ ['"'])

/-- A truth value. -/
def writeBoolean (b : Bool) : List Char :=
  if b then ['t', 'r', 'u', 'e'] else ['f', 'a', 'l', 's', 'e']

/-- An integer. -/
def writeInteger (n : Int) : List Char := (toString n).toList

/-- The parts, separated by commas. -/
def separated : List (List Char) → List Char
  | [] => []
  | [part] => part
  | part :: rest => part ++ ',' :: separated rest

/-- An array of written elements. -/
def writeArray (items : List (List Char)) : List Char := '[' :: (separated items ++ [']'])

/-- A member of an object, with a written value. -/
def writeMember (key : String) (value : List Char) : List Char :=
  writeString key ++ ':' :: value

/-- An object of written members, in the order given. -/
def writeObject (members : List (List Char)) : List Char :=
  '\x7b' :: (separated members ++ ['\x7d'])

end ConfigSchema.Json
