import ConfigSchema.Reading.NumberLiteral
import ConfigSchema.Reading.StringLiteral

/-!
# How a value begins

Whatever is expected of a value, its first symbol is looked at in the same way: a word, a
number or a string is read to its end, of an array or an object only the opening bracket is
taken. What was found is then judged by whoever asked for it, so a misspelt value is always
reported as misspelt, and never as a value of the wrong type.
-/

namespace ConfigSchema.Reading

/-- The letters of a word, after its first. -/
def word : List Char → Reader Unit
  | [], s => .ok (.nothing () s)
  | _ :: _, [] => .error .endInValue
  | c :: cs, x :: s =>
    if x = .char c then do return (← word cs s).afterFirst
    else .error .expectedWord

/-- The rest of a lexeme that starts with a character. -/
def lexemeAfter (c : Char) : Reader Lexeme := fun s =>
  match c with
  | 'n' => Reader.map (fun _ => .null) (word ['u', 'l', 'l']) s
  | 't' => Reader.map (fun _ => .boolean true) (word ['r', 'u', 'e']) s
  | 'f' => Reader.map (fun _ => .boolean false) (word ['a', 'l', 's', 'e']) s
  | '-' => Reader.map .number (number true) s
  | '"' => Reader.map .string string s
  | '[' => .ok (.nothing .array s)
  | '\x7b' => .ok (.nothing .object s)
  | _ => .error .expectedValue

/-- **Reads how a value begins**, after spaces. -/
def lexeme : Reader Lexeme := fun s =>
  match s.next? with
  | none => .error .endInValue
  | some ⟨.stray _, _, _⟩ => .error .expectedValue
  | some ⟨.char c, r, h⟩ => do
    if c.isDigit then
      let taken ← Reader.map .number (number false) (.char c :: r)
      return taken.weaken h
    else
      let taken ← lexemeAfter c r
      return taken.behind h

end ConfigSchema.Reading
