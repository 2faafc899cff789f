import ConfigSchema.Reading.Tree

/-!
# What a reader answers to a text

A reader that is given a text and something behind it either takes off exactly the text, or it
stops at a fault inside the text; in both cases what stands behind makes no difference. This is
how a reader *answers* a text (`ConfigSchema.Reading.Reader.Answers`), and it is the form of
all statements about the reading of written documents: for acceptance and refusal at once,
and without a trace of the bounds that the type of readers carries along.

Readers are put together by running one after the other, so answers are
(`ConfigSchema.Reading.map_pair_bind`).
-/

namespace ConfigSchema.Reading

variable {α β : Type}

/-- The symbols of a text. -/
def symbols (text : List Char) : Input := text.map .char

/-- A text without characters has no symbols. -/
@[simp] theorem symbols_nil : symbols [] = [] := rfl

/-- The symbols of a text, one by one. -/
@[simp] theorem symbols_cons (c : Char) (text : List Char) :
    symbols (c :: text) = .char c :: symbols text := rfl

/-- The symbols of two texts in a row. -/
@[simp] theorem symbols_append (text text' : List Char) :
    symbols (text ++ text') = symbols text ++ symbols text' := List.map_append

/-- The input that a string of characters is. -/
theorem ofString_ofList (text : List Char) :
    Input.ofString (String.ofList text) = symbols text := by
  rw [Input.ofString, String.toList_ofList]
  rfl

/-- What was taken, and what is left. -/
def Taken.pair {s : Input} (taken : Taken α s) : α × Input := (taken.value, taken.rest)

/-- What a reader does on an input. -/
def Reader.outcome (read : Reader α) (s : Input) : Except Fault (α × Input) :=
  (read s).map Taken.pair

/-- **A reader answers a text**, whatever stands behind it: it takes the text off with a
result, or it stops at a fault. -/
def Reader.Answers (read : Reader α) (text : List Char) (answer : Except Fault α) : Prop :=
  ∀ rest : Input, read.outcome (symbols text ++ rest) = answer.map fun x => (x, rest)

namespace Reader

variable {read : Reader α} {text : List Char} {s r : Input} {x : α} {e : Fault}

/-- A reader has a result exactly if it reads it. -/
theorem outcome_eq_ok_iff : read.outcome s = .ok (x, r) ↔ read.Reads s x r := by
  rw [outcome]
  cases hread : read s with
  | error e =>
    constructor
    · intro h
      cases h
    · rintro ⟨b, hb⟩
      rw [hread] at hb
      cases hb
  | ok taken =>
    constructor
    · intro h
      obtain ⟨rfl, rfl⟩ := Prod.mk.inj (Except.ok.inj h)
      exact reads_of_eq_ok hread
    · intro h
      obtain ⟨rfl, rfl⟩ := (reads_of_eq_ok hread).unique h
      rfl

/-- The fault of a reader is its outcome. -/
theorem outcome_eq_error_iff : read.outcome s = .error e ↔ read s = .error e := by
  rw [outcome]
  cases read s with
  | error e' => exact ⟨fun h => congrArg Except.error (Except.error.inj h), fun h =>
      congrArg Except.error (Except.error.inj h)⟩
  | ok taken =>
    constructor
    · intro h
      cases h
    · intro h
      cases h

end Reader

/-! ### Readers in a row -/

/-- What follows a reader that has a result goes on from it. -/
theorem map_pair_bind_ok {s s' t : Input} {first : Reader α} {x : α}
    {next : Taken α s → Except Fault (Taken β t)} {result : Except Fault (β × Input)}
    (hfirst : first.outcome s = .ok (x, s'))
    (hnext : ∀ h, (next ⟨x, s', h⟩).map Taken.pair = result) :
    (first s >>= next).map Taken.pair = result := by
  obtain ⟨h, hread⟩ := Reader.outcome_eq_ok_iff.mp hfirst
  rw [hread]
  exact hnext h

/-- What follows a reader that stops at a fault is not tried. -/
theorem map_pair_bind_error {s t : Input} {first : Reader α} {e : Fault}
    {next : Taken α s → Except Fault (Taken β t)} (hfirst : first.outcome s = .error e) :
    (first s >>= next).map Taken.pair = .error e := by
  rw [Reader.outcome_eq_error_iff.mp hfirst]
  rfl

/-- **One reader after another**: if the first one answers, and what is made of its result
answers, then so does the whole. -/
theorem map_pair_bind {s s' t rest : Input} {first : Reader α} {answer : Except Fault α}
    {next : Taken α s → Except Fault (Taken β t)} {answer' : α → Except Fault β}
    (hfirst : first.outcome s = answer.map fun x => (x, s'))
    (hnext : ∀ x h, answer = .ok x →
      (next ⟨x, s', h⟩).map Taken.pair = (answer' x).map fun y => (y, rest)) :
    (first s >>= next).map Taken.pair = (answer >>= answer').map fun y => (y, rest) := by
  cases answer with
  | error e => exact map_pair_bind_error hfirst
  | ok x => exact map_pair_bind_ok hfirst fun h => hnext x h rfl

/-- A reader whose result is changed at the end. -/
theorem map_pair_bind_pure {s t rest : Input} {first : Reader α} {answer : Except Fault α}
    {last : Taken α s → Taken β t} {f : α → β}
    (hfirst : first.outcome s = answer.map fun x => (x, rest))
    (hlast : ∀ taken, (last taken).pair = (f taken.value, taken.rest)) :
    (first s >>= fun taken => pure (last taken)).map Taken.pair =
      (answer >>= fun x => pure (f x)).map fun y => (y, rest) :=
  map_pair_bind hfirst fun x h _ => congrArg Except.ok (hlast ⟨x, rest, h⟩)

/-- A reader whose bound is changed at the end, and nothing else. -/
theorem map_pair_bind_keep {s t : Input} {first : Reader α} {last : Taken α s → Taken α t}
    {result : Except Fault (α × Input)} (hfirst : first.outcome s = result)
    (hlast : ∀ taken, (last taken).pair = taken.pair) :
    (first s >>= fun taken => pure (last taken)).map Taken.pair = result := by
  rw [← hfirst, Reader.outcome]
  cases first s with
  | error e => rfl
  | ok taken => exact congrArg Except.ok (hlast taken)

/-- A result that is changed by a function is answered where the result is. -/
theorem Reader.Answers.map {read : Reader α} {text : List Char} {answer : Except Fault α}
    (f : α → β) (h : read.Answers text answer) :
    (Reader.map f read).Answers text (answer.map f) := by
  intro rest
  have hread := h rest
  cases answer with
  | error e =>
    have hfault := Reader.outcome_eq_error_iff.mp hread
    exact Reader.outcome_eq_error_iff.mpr (by rw [Reader.map, hfault]; rfl)
  | ok x =>
    have hreads := Reader.outcome_eq_ok_iff.mp hread
    exact Reader.outcome_eq_ok_iff.mpr (Reader.reads_map_iff.mpr ⟨x, hreads, rfl⟩)

/-! ### Single symbols -/

/-- A symbol that is no space is the next one. -/
theorem next?_cons {x : Symbol} (h : x.isSpace = false) (r : Input) :
    Input.next? (x :: r) = some ⟨x, r, Nat.lt_succ_self _⟩ := by
  rw [Input.next?, if_neg (by rw [h]; exact Bool.false_ne_true)]

/-- The colon answers itself. -/
theorem colon_answers : colon.Answers [':'] (.ok ()) := fun _ => rfl

/-! ### Whole documents -/

/-- **A document that is a text and nothing else** is read as the text is answered. -/
theorem readAll_of_answers {read : Reader α} {text : List Char} {answer : Except Fault α}
    (h : read.Answers text answer) : readAll read (symbols text) = answer := by
  have hread := h []
  rw [List.append_nil] at hread
  cases answer with
  | error e =>
    rw [readAll, Reader.outcome_eq_error_iff.mp hread]
    rfl
  | ok x => exact readAll_eq_ok_iff.mpr ⟨[], Reader.outcome_eq_ok_iff.mp hread, rfl⟩

end ConfigSchema.Reading
