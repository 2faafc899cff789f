import ConfigSchema.Reading.Fault
import ConfigSchema.Reading.Input

/-!
# Readers

A reader takes something off the front of the input and returns it with the rest, or it
stops at a fault. The rest is never longer than the input was; since every comma, colon and
bracket between two reads makes it strictly shorter, the loops over elements and members
come to an end.

Nothing but the input decides what a reader does: there is no position, and a fault does
not carry one. So a successful read is a relation between an input, a result and a rest
(`ConfigSchema.Reading.Reader.Reads`), and a whole document is read exactly if its value is
and only spaces are left (`ConfigSchema.Reading.readAll_eq_ok_iff`).
-/

namespace ConfigSchema.Reading

/-- What a reader took off the front of `s`. -/
structure Taken (α : Type) (s : Input) where
  /-- What was read. -/
  value : α
  /-- What is left. -/
  rest : Input
  /-- No more is left than there was. -/
  bound : rest.length ≤ s.length

/-- A reader of an `α`. -/
abbrev Reader (α : Type) := (s : Input) → Except Fault (Taken α s)

namespace Taken

variable {α β : Type} {s t : Input}

/-- What was taken off a tail of `s` was taken off `s`. -/
def weaken (x : Taken α t) (h : t.length ≤ s.length) : Taken α s :=
  ⟨x.value, x.rest, Nat.le_trans x.bound h⟩

/-- Another result, with the same rest. -/
def map (f : α → β) (x : Taken α s) : Taken β s := ⟨f x.value, x.rest, x.bound⟩

/-- A result for which nothing was taken off. -/
def nothing (x : α) (s : Input) : Taken α s := ⟨x, s, Nat.le_refl _⟩

/-- What was taken off a shorter tail of `s` was taken off `s`. -/
def behind (x : Taken α t) (h : t.length < s.length) : Taken α s := x.weaken (Nat.le_of_lt h)

/-- What was taken off after the first symbol was taken off the whole. -/
def afterFirst {y : Symbol} (x : Taken α s) : Taken α (y :: s) := x.weaken (Nat.le_succ _)

end Taken

variable {α β : Type}

/-- A reader whose result is changed by a function. -/
def Reader.map (f : α → β) (read : Reader α) : Reader β := fun s => (read s).map (Taken.map f)

/-! ### Successful reads

What a reader does on an input that it accepts is stated as a relation between the input,
the result and the rest; the type of an answer mentions the input, the relation does not. -/

/-- `read` takes `x` off `s` and leaves `r`. -/
def Reader.Reads (read : Reader α) (s : Input) (x : α) (r : Input) : Prop :=
  ∃ h, read s = .ok ⟨x, r, h⟩

/-- **A read has one outcome.** -/
theorem Reader.Reads.unique {read : Reader α} {s r r' : Input} {x x' : α}
    (h : read.Reads s x r) (h' : read.Reads s x' r') : x = x' ∧ r = r' := by
  obtain ⟨b, hb⟩ := h
  obtain ⟨b', hb'⟩ := h'
  rw [hb] at hb'
  injection hb' with heq
  injection heq with hx hr
  exact ⟨hx, hr⟩

/-- A reader that returns an answer reads its result and leaves its rest. -/
theorem Reader.reads_of_eq_ok {read : Reader α} {s : Input} {taken : Taken α s}
    (h : read s = .ok taken) : read.Reads s taken.value taken.rest :=
  ⟨taken.bound, h⟩

/-- A changed result is read where the result is. -/
theorem Reader.reads_map_iff {read : Reader α} {f : α → β} {s r : Input} {y : β} :
    (Reader.map f read).Reads s y r ↔ ∃ x, read.Reads s x r ∧ f x = y := by
  constructor
  · rintro ⟨b, hb⟩
    rw [Reader.map] at hb
    cases hr : read s with
    | error e => rw [hr] at hb; cases hb
    | ok taken =>
      rw [hr] at hb
      injection hb with heq
      injection heq with hx hrest
      exact ⟨taken.value, ⟨hrest ▸ taken.bound, by subst hrest; exact hr⟩, hx⟩
  · rintro ⟨x, ⟨b, hb⟩, rfl⟩
    exact ⟨b, by rw [Reader.map, hb]; rfl⟩

/-- Skips spaces and takes one symbol, which has to be `c`: `atEnd` is the fault if there is
none, `other` if it is another one. -/
def expectSymbol (c : Char) (atEnd other : Fault) : Reader Unit := fun s =>
  match s.next? with
  | none => .error atEnd
  | some ⟨x, r, h⟩ => if x = .char c then .ok ((Taken.nothing () r).behind h) else .error other

/-- The colon between a key and its value. -/
def colon : Reader Unit := expectSymbol ':' .endInObject .expectedColon

/-- Reads a whole document: the value, and nothing but spaces after it. -/
def readAll (read : Reader α) (s : Input) : Except Fault α := do
  let taken ← read s
  if taken.rest.next?.isNone then return taken.value
  else throw .trailingCharacters

/-- A document is read exactly if its value is, and nothing but spaces is left. -/
theorem readAll_eq_ok_iff {read : Reader α} {s : Input} {x : α} :
    readAll read s = .ok x ↔ ∃ r, read.Reads s x r ∧ r.next? = none := by
  rw [readAll]
  cases hr : read s with
  | error e =>
    constructor
    · intro h
      cases h
    · rintro ⟨r, ⟨b, hb⟩, -⟩
      rw [hr] at hb
      cases hb
  | ok taken =>
    have hreads := Reader.reads_of_eq_ok hr
    show (if taken.rest.next?.isNone then Except.ok taken.value
      else Except.error Fault.trailingCharacters) = Except.ok x ↔ _
    constructor
    · intro h
      split at h
      · next hnone =>
        injection h with hx
        exact ⟨taken.rest, hx ▸ hreads, Option.isNone_iff_eq_none.mp hnone⟩
      · cases h
    · rintro ⟨r, hr', hnone⟩
      obtain ⟨rfl, rfl⟩ := hreads.unique hr'
      rw [if_pos (by rw [hnone]; rfl)]

end ConfigSchema.Reading
