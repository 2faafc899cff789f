/-!
# The input of a reader

A document comes as a string or as the bytes of a file. Bytes may be no valid UTF-8, and
where they are not matters only inside strings: everywhere else such a byte is just a
character that does not belong there. So the input is a list of symbols, each a character
or a stray byte. A stray byte is never one of the characters that give a document its
structure, since those are ASCII.
-/

namespace ConfigSchema.Reading

/-- One symbol of the input. -/
inductive Symbol where
  /-- A character. -/
  | char (c : Char)
  /-- A byte that does not belong to the encoding of a character. -/
  | stray (byte : UInt8)
  deriving DecidableEq, Repr, Inhabited

/-- What is left to read. -/
abbrev Input := List Symbol

namespace Symbol

/-- The character, unless the symbol is a stray byte. -/
def char? : Symbol → Option Char
  | .char c => some c
  | .stray _ => none

/-- How many bytes a symbol takes. -/
def width : Symbol → Nat
  | .char c => c.utf8Size
  | .stray _ => 1

/-- The four characters that may stand between the parts of a document. -/
def isSpace : Symbol → Bool
  | .char ' ' => true
  | .char '\t' => true
  | .char '\n' => true
  | .char '\r' => true
  | _ => false

/-- The value of a decimal digit. -/
def digit? : Symbol → Option Nat
  | .char c => if c.isDigit then some (c.toNat - '0'.toNat) else none
  | .stray _ => none

/-- The value of a digit in base sixteen, of either case. -/
def hexDigit? : Symbol → Option Nat
  | .char c =>
    if c.isDigit then some (c.toNat - '0'.toNat)
    else if 'a' ≤ c ∧ c ≤ 'f' then some (c.toNat - 'a'.toNat + 10)
    else if 'A' ≤ c ∧ c ≤ 'F' then some (c.toNat - 'A'.toNat + 10)
    else none
  | .stray _ => none

end Symbol

namespace Input

/-- The input that a string is. -/
def ofString (text : String) : Input := text.toList.map .char

/-- The input that the bytes of a file are: characters wherever the bytes encode one. -/
def ofBytes : List UInt8 → Input
  | [] => []
  | byte :: rest =>
    -- no character takes more than four bytes
    match ((byte :: rest).take 4).toByteArray.utf8DecodeChar? 0 with
    | some c => .char c :: ofBytes (rest.drop (c.utf8Size - 1))
    | none => .stray byte :: ofBytes rest
  termination_by bytes => bytes.length
  decreasing_by all_goals (simp only [List.length_cons, List.length_drop]; omega)

/-- The first symbol of an input after the spaces it starts with, and what follows it. -/
structure Next (s : Input) where
  /-- The symbol. -/
  symbol : Symbol
  /-- What follows it. -/
  rest : Input
  /-- The symbol at least is gone. -/
  bound : rest.length < s.length

/-- Skips spaces; there may be nothing after them. -/
def next? : (s : Input) → Option (Next s)
  | [] => none
  | x :: r =>
    if x.isSpace then
      match next? r with
      | none => none
      | some next => some ⟨next.symbol, next.rest, Nat.lt_succ_of_lt next.bound⟩
    else some ⟨x, r, Nat.lt_succ_self _⟩

end Input

end ConfigSchema.Reading
