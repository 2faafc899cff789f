import ConfigSchema.Proofs.Json.Written

/-!
# The nesting of a text

How deep the brackets of a text are nested is counted on its characters, from left to right,
with no regard to anything else that may be wrong with the text
(`ConfigSchema.Json.nesting`). Brackets inside a string do not count, so the count has to know
where strings end, and for this which quotes are escaped.

A written document leaves the count where it found it, whatever brackets are open around it,
and has met exactly as many as it is nested (`ConfigSchema.Json.nests_text`); so the count on
its text is the nesting of the document (`ConfigSchema.Json.nesting_text`).
-/

namespace ConfigSchema.Json

/-- Where a character of a text stands. -/
inductive Place where
  /-- Outside of strings. -/
  | outside
  /-- In a string. -/
  | string
  /-- In a string, after a backslash. -/
  | escape
  deriving DecidableEq, Repr

/-- What is known of the brackets of a text after some of its characters. -/
structure Brackets where
  /-- Where the next character stands. -/
  place : Place
  /-- How many brackets are open. -/
  opened : Nat
  /-- How many have been open at once. -/
  most : Nat
  deriving DecidableEq, Repr

/-- Goes on by one character. -/
def Brackets.step (before : Brackets) (c : Char) : Brackets :=
  match before.place with
  | .escape => { before with place := .string }
  | .string =>
    if c = '"' then { before with place := .outside }
    else if c = '\\' then { before with place := .escape }
    else before
  | .outside =>
    if c = '"' then { before with place := .string }
    else if c = '[' ∨ c = '\x7b' then
      ⟨.outside, before.opened + 1, max before.most (before.opened + 1)⟩
    else if c = ']' ∨ c = '\x7d' then ⟨.outside, before.opened - 1, before.most⟩
    else before

/-- **The nesting of a text**: how many of its brackets are open at once. -/
def nesting (text : List Char) : Nat := (text.foldl Brackets.step ⟨.outside, 0, 0⟩).most

/-- A text that starts and ends outside of strings, closes the brackets that it opens, and has
`depth` of them open at once. -/
def Nests (text : List Char) (depth : Nat) : Prop :=
  ∀ opened most, opened ≤ most →
    text.foldl Brackets.step ⟨.outside, opened, most⟩ =
      ⟨.outside, opened, max most (opened + depth)⟩

namespace Nests

variable {ι : Type} {text text' : List Char} {depth depth' : Nat}

theorem nesting_eq (h : Nests text depth) : Json.nesting text = depth := by
  rw [Json.nesting, h 0 0 (Nat.le_refl 0)]
  show max 0 (0 + depth) = depth
  omega

/-! ### Texts in a row -/

theorem nil : Nests [] 0 := fun opened most h => by
  rw [List.foldl_nil, Nat.add_zero, Nat.max_eq_left h]

theorem append (h : Nests text depth) (h' : Nests text' depth') :
    Nests (text ++ text') (max depth depth') := by
  intro opened most hle
  rw [List.foldl_append, h opened most hle, h' opened _ (by omega)]
  congr 1
  omega

/-- A comma or a colon before a text opens nothing. -/
theorem cons {c : Char} (hc : c = ',' ∨ c = ':') (h : Nests text depth) :
    Nests (c :: text) depth := by
  intro opened most hle
  rcases hc with rfl | rfl
  · exact h opened most hle
  · exact h opened most hle

theorem flatMap {xs : List ι} {text : ι → List Char} {depth : ι → Nat}
    (h : ∀ x ∈ xs, Nests (text x) (depth x)) :
    Nests (xs.flatMap text) (deepest (xs.map depth)) := by
  induction xs with
  | nil => exact nil
  | cons x xs ih =>
    obtain ⟨hx, hxs⟩ := List.forall_mem_cons.mp h
    exact hx.append (ih hxs)

/-- Separated texts are nested as deep as the deepest of them. -/
theorem separated {xs : List ι} {text : ι → List Char} {depth : ι → Nat}
    (h : ∀ x ∈ xs, Nests (text x) (depth x)) :
    Nests (Json.separated (xs.map text)) (deepest (xs.map depth)) := by
  cases xs with
  | nil => exact nil
  | cons x xs =>
    obtain ⟨hx, hxs⟩ := List.forall_mem_cons.mp h
    rw [List.map_cons, separated_cons, List.flatMap_map]
    exact hx.append (flatMap fun y hy => (hxs y hy).cons (Or.inl rfl))

/-- A pair of brackets adds one level. -/
theorem bracketed {o c : Char} (hbrackets : (o = '[' ∧ c = ']') ∨ (o = '\x7b' ∧ c = '\x7d'))
    (h : Nests text depth) : Nests (o :: (text ++ [c])) (depth + 1) := by
  intro opened most hle
  have hopening : Brackets.step ⟨.outside, opened, most⟩ o =
      ⟨.outside, opened + 1, max most (opened + 1)⟩ := by
    rcases hbrackets with ⟨rfl, -⟩ | ⟨rfl, -⟩ <;> rfl
  -- the closing bracket leaves the most that have been open as it is
  have hclosing : ∀ most, Brackets.step ⟨.outside, opened + 1, most⟩ c =
      ⟨.outside, opened, most⟩ := by
    rcases hbrackets with ⟨-, rfl⟩ | ⟨-, rfl⟩ <;> exact fun _ => rfl
  rw [List.foldl_cons, hopening, List.foldl_append, h _ _ (Nat.le_max_right ..),
    List.foldl_cons, hclosing, List.foldl_nil]
  congr 1
  omega

end Nests

/-! ### Strings -/

theorem step_string {c : Char} (hquote : c ≠ '"') (hbackslash : c ≠ '\\') (opened most : Nat) :
    Brackets.step ⟨.string, opened, most⟩ c = ⟨.string, opened, most⟩ := by
  rw [Brackets.step]
  dsimp only
  rw [if_neg hquote, if_neg hbackslash]

/-- What is written for a character does not end the string that it stands in. -/
theorem foldl_step_escapeChar (c : Char) (opened most : Nat) :
    (escapeChar c).foldl Brackets.step ⟨.string, opened, most⟩ = ⟨.string, opened, most⟩ := by
  have hplain : ∀ n < 16, hexDigit n ≠ '"' ∧ hexDigit n ≠ '\\' := by decide
  unfold escapeChar
  split
  case h_8 hquote hbackslash _ _ _ _ _ =>
    split
    · next hcontrol =>
      -- the backslash and the letter, the two zeros, and the two digits of the character
      obtain ⟨hquote', hbackslash'⟩ := hplain (c.toNat / 16) (by omega)
      obtain ⟨hquote'', hbackslash''⟩ := hplain (c.toNat % 16) (by omega)
      show Brackets.step (Brackets.step ⟨.string, opened, most⟩ _) _ = _
      rw [step_string hquote' hbackslash', step_string hquote'' hbackslash'']
    · exact step_string hquote hbackslash opened most
  -- the seven characters that are escaped by a letter
  all_goals rfl

theorem nests_writeString (s : String) : Nests (writeString s) 0 := by
  intro opened most hle
  have hchars : ∀ cs : List Char,
      (cs.flatMap escapeChar).foldl Brackets.step ⟨.string, opened, most⟩ =
        ⟨.string, opened, most⟩ := by
    intro cs
    induction cs with
    | nil => rfl
    | cons c cs ih => rw [List.flatMap_cons, List.foldl_append, foldl_step_escapeChar, ih]
  rw [writeString, List.foldl_cons, List.foldl_append,
    show Brackets.step ⟨.outside, opened, most⟩ '"' = ⟨.string, opened, most⟩ from rfl, hchars,
    Nat.add_zero, Nat.max_eq_left hle]
  rfl

theorem nests_writeBoolean (b : Bool) : Nests (writeBoolean b) 0 := by
  intro opened most hle
  rw [Nat.add_zero, Nat.max_eq_left hle]
  cases b <;> rfl

theorem Nests.writeMember {value : List Char} {depth : Nat} (key : String)
    (h : Nests value depth) : Nests (Json.writeMember key value) depth := by
  have hmember := (nests_writeString key).append (h.cons (c := ':') (Or.inr rfl))
  rwa [Nat.zero_max] at hmember

/-! ### Documents -/

/-- **A written document** closes what it opens, and is nested as deep as it says. -/
theorem nests_text (w : Written) : Nests w.text w.nesting := by
  induction w using Written.induction with
  | boolean b => exact nests_writeBoolean b
  | string s => exact nests_writeString s
  | array items ih =>
    rw [Written.text_array, Written.nesting_array]
    exact (Nests.separated ih).bracketed (Or.inl ⟨rfl, rfl⟩)
  | object members ih =>
    rw [Written.text_object, Written.nesting_object]
    exact (Nests.separated fun m hm => (ih m hm).writeMember m.1).bracketed (Or.inr ⟨rfl, rfl⟩)

/-- **The nesting of the text** of a written document is that of the document. -/
theorem nesting_text (w : Written) : nesting w.text = w.nesting := (nests_text w).nesting_eq

-- brackets in strings do not count, and an escaped quote does not end a string
example : nesting "[\x7b\"a]\\\"[\":[true]\x7d,[]]".toList = 3 := by decide

end ConfigSchema.Json
