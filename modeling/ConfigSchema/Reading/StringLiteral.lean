import ConfigSchema.Reading.Reader

/-!
# Strings

A string is read up to its closing quote, escapes being replaced on the way. A character
outside the basic plane is escaped as a pair of surrogates; a surrogate without its partner
is a fault. Stray bytes are a fault of the string as a whole, found at its closing quote
only.

A string that is skipped (`ConfigSchema.Reading.skipString`) is held to less: its escapes
have to be spelt correctly, but surrogates need no partner and stray bytes are passed over.
-/

namespace ConfigSchema.Reading

/-! ### Escapes -/

/-- The value of four digits in base sixteen, after `\u`. The input has to have four bytes
left, whatever they are; then they have to be such digits. -/
def fourHexDigits : Reader Nat := fun s =>
  if (s.take 4).foldr (fun x n => x.width + n) 0 < 4 then .error .endInString
  else match s with
    | a :: b :: c :: d :: r =>
      match a.hexDigit?, b.hexDigit?, c.hexDigit?, d.hexDigit? with
      | some a, some b, some c, some d =>
        .ok ⟨((a * 16 + b) * 16 + c) * 16 + d, r, by simp; omega⟩
      | _, _, _, _ => .error .invalidEscape
    | _ => .error .invalidEscape

/-- The character that an escape of one letter stands for. -/
def shortEscape? : Char → Option Char
  | '"' => some '"'
  | '\\' => some '\\'
  | '/' => some '/'
  | 'b' => some '\x08'
  | 'f' => some '\x0c'
  | 'n' => some '\n'
  | 'r' => some '\r'
  | 't' => some '\t'
  | _ => none

/-- The number is the first half of a pair of surrogates. -/
def isLeading (n : Nat) : Bool := 0xD800 ≤ n && n < 0xDC00

/-- The number is the second half of a pair of surrogates. -/
def isTrailing (n : Nat) : Bool := 0xDC00 ≤ n && n < 0xE000

/-- The character of a pair of surrogates. -/
def ofSurrogates (leading trailing : Nat) : Char :=
  Char.ofNat (0x10000 + (leading - 0xD800) * 0x400 + (trailing - 0xDC00))

/-- The second half of a pair of surrogates, written as an escape of its own. -/
def trailingSurrogate : Reader Nat := fun s =>
  match s with
  | [] => .error .endInString
  | .char '\\' :: [] => .error .endInString
  | .char '\\' :: .char 'u' :: r => do
    let n ← fourHexDigits r
    if isTrailing n.value then return n.weaken (by simp; omega)
    else throw .loneSurrogate
  | _ => .error .missingSurrogate

/-- The character that an escape stands for, after its backslash. -/
def escape : Reader Char := fun s =>
  match s with
  | [] => .error .endInString
  | .char 'u' :: r => do
    let n ← fourHexDigits r
    if isTrailing n.value then throw .loneSurrogate
    else if isLeading n.value then
      let m ← trailingSurrogate n.rest
      return ⟨ofSurrogates n.value m.value, m.rest,
        Nat.le_succ_of_le (Nat.le_trans m.bound n.bound)⟩
    else return ⟨Char.ofNat n.value, n.rest, Nat.le_succ_of_le n.bound⟩
  | .char c :: r =>
    match shortEscape? c with
    | some c => .ok (Taken.nothing c r).afterFirst
    | none => .error .invalidEscape
  | .stray _ :: _ => .error .invalidEscape

/-! ### Strings -/

/-- The symbol may not stand in a string as it is. -/
def isControl : Symbol → Bool
  | .char c => c.toNat < 0x20
  | .stray _ => false

/-- The symbols of a string after its opening quote. -/
def stringSymbols (s : Input) : Except Fault (Taken (List Symbol) s) :=
  match s with
  | [] => .error .endInString
  | x :: r =>
    if x = .char '"' then .ok (Taken.nothing [] r).afterFirst
    else if x = .char '\\' then do
      let c ← escape r
      let more ← stringSymbols c.rest
      return ⟨.char c.value :: more.value, more.rest,
        Nat.le_succ_of_le (Nat.le_trans more.bound c.bound)⟩
    else if isControl x then .error .controlCharacter
    else do
      let more ← stringSymbols r
      return ⟨x :: more.value, more.rest, Nat.le_succ_of_le more.bound⟩
  termination_by s.length
  decreasing_by
    · have hc := c.bound
      simp; omega
    · simp

/-- **Reads a string** after its opening quote. -/
def string : Reader String := fun s => do
  let taken ← stringSymbols s
  match taken.value.mapM Symbol.char? with
  | some cs => return ⟨String.ofList cs, taken.rest, taken.bound⟩
  | none => throw .invalidText

/-! ### Skipped strings -/

/-- Skips an escape after its backslash. -/
def skipEscape : Reader Unit := fun s =>
  match s with
  | [] => .error .endInString
  | .char 'u' :: r => do return ((← fourHexDigits r).map fun _ => ()).afterFirst
  | .char c :: r =>
    if (shortEscape? c).isSome then .ok (Taken.nothing () r).afterFirst else .error .invalidEscape
  | .stray _ :: _ => .error .invalidEscape

/-- Skips a string after its opening quote. -/
def skipString (s : Input) : Except Fault (Taken Unit s) :=
  match s with
  | [] => .error .endInString
  | x :: r =>
    if x = .char '"' then .ok (Taken.nothing () r).afterFirst
    else if x = .char '\\' then do
      let c ← skipEscape r
      return (← skipString c.rest).weaken (Nat.le_succ_of_le c.bound)
    else if isControl x then .error .controlCharacter
    else do return (← skipString r).afterFirst
  termination_by s.length
  decreasing_by
    · have hc := c.bound
      simp; omega
    · simp

end ConfigSchema.Reading
