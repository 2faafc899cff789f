/-!
# Positions at the end of a text

A message that says where something was found ends in the place: a line and a column, each
after a word for it. `ConfigSchema.Text.withoutPosition` takes the place away and leaves what
was said about it.

Lines are counted from one. A position in line zero names no place, so that a position before
it, if there is one, is still the place; both go. This is as far as it goes: a third position
is part of what was said. The numbers of a position may be of any length, but those of a
position without a place fit 64 bits.

A text in which the words before the line do not occur has no position, and is left as it is
(`ConfigSchema.Text.withoutPosition_of_not_infix`).
-/

namespace ConfigSchema.Text

/-- A line and a column. -/
structure Position where
  /-- The line, counted from one. -/
  line : Nat
  /-- The column. -/
  column : Nat
  deriving DecidableEq, Repr

namespace Position

/-- The words before the line. -/
def lineWords : List Char := " at line ".toList

/-- The words before the column. -/
def columnWords : List Char := " column ".toList

/-- What follows the words that a list begins with. -/
def after? (words cs : List Char) : Option (List Char) :=
  if words.isPrefixOf cs then some (cs.drop words.length) else none

/-- The number that a list spells, which has to consist of digits, one at least. -/
def counter? (cs : List Char) : Option Nat :=
  if cs.isEmpty || !cs.all Char.isDigit then none else some (Nat.ofDigitChars 10 cs 0)

/-- The position that a list spells, from its first character to its last. -/
def ofChars? (cs : List Char) : Option Position := do
  let rest ← after? lineWords cs
  let line ← counter? (rest.takeWhile Char.isDigit)
  let rest ← after? columnWords (rest.dropWhile Char.isDigit)
  let column ← counter? rest
  return ⟨line, column⟩

/-- The position names no place. -/
def isBlank (p : Position) : Bool := p.line = 0 && p.column < Nat.pow 2 64

/-- What spells a position begins with the words before the line. -/
theorem isPrefix_of_ofChars? {cs : List Char} {p : Position} (h : ofChars? cs = some p) :
    lineWords <+: cs := by
  obtain ⟨rest, hrest, -⟩ := Option.bind_eq_some_iff.1 h
  by_cases hwords : lineWords.isPrefixOf cs
  · exact List.isPrefixOf_iff_prefix.1 hwords
  · simp [after?, hwords] at hrest

end Position

/-- What stands before the position at the end of a text, and the position. -/
def cutPosition? : List Char → Option (List Char × Position)
  | [] => none
  | c :: cs =>
    match Position.ofChars? (c :: cs) with
    | some p => some ([], p)
    | none => (cutPosition? cs).map fun (before, p) => (c :: before, p)

/-- **A text without the position at its end**; if that names no place, also without the
position before it. -/
def withoutPosition (cs : List Char) : List Char :=
  match cutPosition? cs with
  | none => cs
  | some (before, p) =>
    if p.isBlank then
      match cutPosition? before with
      | none => before
      | some (earlier, _) => earlier
    else before

/-- A text without the words before the line has no position at its end. -/
theorem cutPosition?_eq_none {cs : List Char} (h : ¬ Position.lineWords <:+: cs) :
    cutPosition? cs = none := by
  induction cs with
  | nil => rfl
  | cons c cs ih =>
    have hcons : Position.ofChars? (c :: cs) = none := by
      cases hp : Position.ofChars? (c :: cs) with
      | none => rfl
      | some p => exact absurd (Position.isPrefix_of_ofChars? hp).isInfix h
    have htail : cutPosition? cs = none := ih fun hi => h (hi.trans (List.suffix_cons c cs).isInfix)
    simp [cutPosition?, hcons, htail]

/-- **A text in which the words before the line do not occur is left as it is.** -/
theorem withoutPosition_of_not_infix {cs : List Char} (h : ¬ Position.lineWords <:+: cs) :
    withoutPosition cs = cs := by
  rw [withoutPosition, cutPosition?_eq_none h]

/-! ### Examples -/

-- a position without a place gives way to the one before it, but not to a third
example : withoutPosition "x at line 3 column 4 at line 1 column 2 at line 0 column 9".toList
    = "x at line 3 column 4".toList := by decide +kernel
-- a column too large for 64 bits
example : withoutPosition "x at line 1 column 2 at line 0 column 18446744073709551616".toList
    = "x at line 1 column 2".toList := by decide +kernel

end ConfigSchema.Text
