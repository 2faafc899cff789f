import ConfigSchema.Reading.Lexeme

/-!
# Skipping values

The value of a member that nobody asked for is passed over. It is checked for its syntax
only: numbers are not evaluated, strings are not decoded (`skipString`), and there is no
limit to the nesting. Faults are told more coarsely than by the reader of trees: after a
comma an element or a key is expected, whatever stands there.

The brackets that are open form a stack, and the two functions here mark the two places
where the skipping may stand: before a value and after one.
-/

namespace ConfigSchema.Reading

/-- An open bracket. -/
inductive Bracket where
  /-- The bracket of an array. -/
  | array
  /-- The brace of an object. -/
  | object
  deriving DecidableEq, Repr

namespace Bracket

/-- The character that closes the bracket. -/
def closing : Bracket → Char
  | .array => ']'
  | .object => '\x7d'

/-- The bracket that a symbol opens. -/
def opened? : Symbol → Option Bracket
  | .char '[' => some .array
  | .char '\x7b' => some .object
  | _ => none

/-- The fault if the input ends inside the bracket. -/
def unclosed : Bracket → Fault
  | .array => .endInList
  | .object => .endInObject

/-- The fault if neither a comma nor the end follows a value. -/
def unseparated : Bracket → Fault
  | .array => .expectedCommaOrListEnd
  | .object => .expectedCommaOrObjectEnd

end Bracket

/-- Skips a number after its sign. -/
def skipNumber : Reader Unit :=
  Reader.map (fun _ => ()) (NumberLiteral.readUnsigned .invalidNumber false)

/-- Skips a value that is no array and no object. -/
def skipScalar : Reader Unit := fun s =>
  match s with
  | [] => .error .endInValue
  | .stray _ :: _ => .error .expectedValue
  | .char c :: r => do
    if c.isDigit then skipNumber (.char c :: r)
    else
      let taken ← match c with
        | 'n' => word ['u', 'l', 'l'] r
        | 't' => word ['r', 'u', 'e'] r
        | 'f' => word ['a', 'l', 's', 'e'] r
        | '-' => skipNumber r
        | '"' => skipString r
        | _ => .error .expectedValue
      return taken.afterFirst

/-- Skips a key and its colon. -/
def skipKey : Reader Unit := fun s => do
  let quote ← expectSymbol '"' .endInObject .keyNotString s
  let key ← skipString quote.rest
  let sign ← colon key.rest
  return ⟨(), sign.rest, Nat.le_trans sign.bound (Nat.le_trans key.bound quote.bound)⟩

/-- Skips what has to stand before a value directly inside a bracket: nothing in an array, a
key in an object. -/
def skipBefore : Bracket → Reader Unit
  | .array => fun s => .ok (.nothing () s)
  | .object => skipKey

mutual

/-- Skips a value inside the brackets of a stack, and all that follows up to the bracket
that closes the stack. -/
def skipValue (stack : List Bracket) (s : Input) : Except Fault (Taken Unit s) :=
  match s.next? with
  | none => .error .endInValue
  | some ⟨x, r, h⟩ =>
    match Bracket.opened? x with
    | none => do
      let scalar ← skipScalar (x :: r)
      let last ← skipAfterValue stack scalar.rest
      return (last.weaken scalar.bound).weaken h
    | some b =>
      match r.next? with
      | none => .error b.unclosed
      | some ⟨y, r', h'⟩ =>
        if y = .char b.closing then do
          let last ← skipAfterValue stack r'
          return (last.behind h').behind h
        else do
          let before ← skipBefore b r
          let last ← skipValue (b :: stack) before.rest
          return (last.weaken before.bound).behind h
  termination_by 2 * s.length + 1
  decreasing_by
    · have hscalar := scalar.bound
      simp only [List.length_cons] at hscalar
      omega
    · omega
    · have hbefore := before.bound
      omega

/-- Skips what follows a value inside the brackets of a stack. -/
def skipAfterValue (stack : List Bracket) (s : Input) : Except Fault (Taken Unit s) :=
  match stack with
  | [] => .ok (.nothing () s)
  | b :: outer =>
    match s.next? with
    | none => .error b.unclosed
    | some ⟨x, r, h⟩ =>
      if x = .char ',' then do
        let before ← skipBefore b r
        let last ← skipValue (b :: outer) before.rest
        return (last.weaken before.bound).behind h
      else if x = .char b.closing then do
        let last ← skipAfterValue outer r
        return last.behind h
      else .error b.unseparated
  termination_by 2 * s.length
  decreasing_by
    · have hbefore := before.bound
      omega
    · omega

end

/-- **Skips one value.** -/
def skip : Reader Unit := skipValue []

end ConfigSchema.Reading
