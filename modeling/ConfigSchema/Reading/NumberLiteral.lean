import ConfigSchema.Binary64.Rounding
import ConfigSchema.Reading.Reader

/-!
# Numbers

A number literal is an optional minus, digits of which the first is a zero only if it is
alone, an optional fraction and an optional exponent. Its syntax
(`ConfigSchema.Reading.NumberLiteral.read`) and its value
(`ConfigSchema.Reading.NumberLiteral.value`) are kept apart: a value that is skipped is
checked for its syntax alone.

The value is an integer if there is neither fraction nor exponent and it fits. Otherwise it
is a floating point number, found in two roundings: digits are collected into a significand
as long as it stays below `2 ^ 64`, all later ones are dropped, of the integer part with
their place value; the significand is rounded, and the result is multiplied or divided by a
rounded power of ten and rounded again. Below `10 ^ (-308)` the division is done in steps
of that size.
-/

namespace ConfigSchema.Reading

/-- The parts of a number literal. -/
structure NumberLiteral where
  /-- There is a minus. -/
  negative : Bool
  /-- The digits before the point. -/
  whole : List Nat
  /-- The digits after the point, if there is one. -/
  fraction : Option (List Nat)
  /-- The exponent, if there is one: whether it has a minus, and its digits. -/
  exponent : Option (Bool × List Nat)
  deriving DecidableEq, Repr

namespace NumberLiteral

/-! ### Syntax -/

/-- The digits that the input starts with. -/
def digits : (s : Input) → Taken (List Nat) s
  | [] => .nothing [] []
  | x :: s =>
    match x.digit? with
    | none => .nothing [] (x :: s)
    | some d =>
      let more := digits s
      ⟨d :: more.value, more.rest, Nat.le_succ_of_le more.bound⟩

/-- Digits of which there has to be one; `atEnd` is the fault if the input ends instead. -/
def someDigits (atEnd : Fault) : Reader (List Nat) := fun s =>
  match s with
  | [] => .error atEnd
  | x :: s =>
    if x.digit?.isNone then .error .invalidNumber else .ok (digits (x :: s))

/-- The digits before the point: a zero that starts them is followed by no other digit. -/
def wholePart (atEnd : Fault) : Reader (List Nat) := fun s => do
  let taken ← someDigits atEnd s
  match taken.value with
  | 0 :: _ :: _ => throw .invalidNumber
  | _ => return taken

/-- The digits after a point, if the input starts with one. -/
def fractionPart (atEnd : Fault) : Reader (Option (List Nat)) := fun s =>
  match s with
  | .char '.' :: r => do
    let taken ← someDigits atEnd r
    return (taken.map some).afterFirst
  | s => .ok (.nothing none s)

/-- The sign of an exponent: whether it is a minus. -/
def exponentSign : (s : Input) → Taken Bool s
  | .char '+' :: r => (Taken.nothing false r).afterFirst
  | .char '-' :: r => (Taken.nothing true r).afterFirst
  | s => .nothing false s

/-- The exponent, if the input starts with one. -/
def exponentPart (atEnd : Fault) : Reader (Option (Bool × List Nat)) := fun s =>
  let exponent (r : Input) : Except Fault (Taken (Option (Bool × List Nat)) r) := do
    let sign := exponentSign r
    let taken ← someDigits atEnd sign.rest
    return (taken.map fun ds => some (sign.value, ds)).weaken sign.bound
  match s with
  | .char 'e' :: r => do return (← exponent r).afterFirst
  | .char 'E' :: r => do return (← exponent r).afterFirst
  | s => .ok (.nothing none s)

/-- Reads a number literal after its sign. `atEnd` is the fault if the input ends where a
digit has to follow. -/
def readUnsigned (atEnd : Fault) (negative : Bool) : Reader NumberLiteral := fun s => do
  let whole ← wholePart atEnd s
  let fraction ← fractionPart atEnd whole.rest
  let exponent ← exponentPart atEnd fraction.rest
  return ⟨⟨negative, whole.value, fraction.value, exponent.value⟩, exponent.rest,
    Nat.le_trans exponent.bound (Nat.le_trans fraction.bound whole.bound)⟩

/-! ### Value -/

/-- The number that digits stand for. -/
def ofDigits (ds : List Nat) : Nat := ds.foldl (fun n d => 10 * n + d) 0

/-- Appends digits to a significand as long as it stays below `2 ^ 64`, and returns those
that are left over. -/
def collect (significand : Nat) : List Nat → Nat × List Nat
  | [] => (significand, [])
  | d :: ds =>
    if significand * 10 + d < Nat.pow 2 64 then collect (significand * 10 + d) ds
    else (significand, d :: ds)

/-- The quotient of a number and a power of ten, in steps of at most `10 ^ 308`. -/
def divideByPowerOfTen (x : Binary64) (n : Nat) : Binary64 :=
  if n ≤ 308 then x.dividedBy (.powerOfTen n)
  else if x.isZero then x
  else divideByPowerOfTen (x.dividedBy (.powerOfTen 308)) (n - 308)
  termination_by n

/-- The magnitude `significand * 10 ^ exponent`, unless it is too large. -/
def magnitude (significand : Nat) (exponent : Int) : Except Fault Binary64 :=
  let x := Binary64.ofNat significand
  if 308 < exponent then if x.isZero then .ok x else .error .numberOutOfRange
  else if 0 ≤ exponent then
    let y := x.times (.powerOfTen exponent.toNat)
    if y.isInfinite then .error .numberOutOfRange else .ok y
  else .ok (divideByPowerOfTen x (-exponent).toNat)

/-- The significand and the power of ten of the digits before and after the point. -/
def parts (l : NumberLiteral) : Nat × Int :=
  let (whole, dropped) := collect 0 l.whole
  match l.fraction with
  | none => (whole, dropped.length)
  | some ds =>
    let (significand, unused) := collect whole ds
    (significand, (dropped.length : Int) - (ds.length - unused.length))

/-- The magnitude of a literal as a floating point number. An exponent beyond 32 bits is not
added to anything: it gives a zero or is out of range. -/
def floatMagnitude (l : NumberLiteral) : Except Fault Binary64 :=
  let (significand, power) := l.parts
  match l.exponent with
  | none => magnitude significand power
  | some (below, ds) =>
    let e := ofDigits ds
    if Nat.pow 2 31 ≤ e then
      if significand ≠ 0 ∧ !below then .error .numberOutOfRange else .ok .zero
    else magnitude significand (if below then power - e else power + e)

/-- The literal as a floating point number. -/
def floatValue (l : NumberLiteral) : Except Fault Json.Number := do
  let x ← l.floatMagnitude
  return .float (if l.negative then x.negate else x)

/-- **The value of a literal.** The integer zero with a minus is a floating point number,
since no integer is a zero with a sign. -/
def value (l : NumberLiteral) : Except Fault Json.Number :=
  let n := ofDigits l.whole
  if l.fraction.isSome ∨ l.exponent.isSome then l.floatValue
  else if l.negative then
    if 0 < n ∧ n ≤ Nat.pow 2 63 then .ok (.negative (Int64.ofInt (-(n : Int))))
    else l.floatValue
  else if n < Nat.pow 2 64 then .ok (.natural n.toUInt64) else l.floatValue

end NumberLiteral

/-- Reads a number after its sign. -/
def number (negative : Bool) : Reader Json.Number := fun s => do
  let literal ← NumberLiteral.readUnsigned .endInValue negative s
  let value ← literal.value.value
  return ⟨value, literal.rest, literal.bound⟩

end ConfigSchema.Reading
