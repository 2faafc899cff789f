import ConfigSchema.Proofs.Outcome
import ConfigSchema.Proofs.Reading.Answer

/-!
# What a successful read has met

A reader that has a result has met something in the input, and what that is does not depend on
the bounds that the reader carries along. It is said here as relations between inputs: what an
input begins with after spaces (`ConfigSchema.Reading.Begins`), and what stands between the
brackets of an array or the braces of an object, item by item
(`ConfigSchema.Reading.ElementsRead`, `ConfigSchema.Reading.MembersRead`).

The loops have results exactly if the relations hold
(`ConfigSchema.Reading.elements_reads_iff`, `ConfigSchema.Reading.members_reads_iff`), and two
readers of one text are compared by an induction on them.
-/

namespace ConfigSchema.Reading

variable {α β σ : Type} {s s' t r r' : Input} {x x' : Symbol}

/-! ### Readers in a row -/

/-- What a reader reads is told by the answer without its bound. -/
theorem Reader.reads_iff {read : Reader α} {a : α} :
    read.Reads s a r ↔ (read s).map Taken.pair = .ok (a, r) :=
  outcome_eq_ok_iff.symm

/-- A result after which nothing follows is what it is. -/
theorem map_pair_pure_eq_ok_iff {taken : Taken α s} {a : α} :
    (pure taken : Except Fault (Taken α s)).map Taken.pair = .ok (a, r) ↔
      taken.value = a ∧ taken.rest = r := by
  constructor
  · intro h
    exact Prod.mk.inj (Except.ok.inj h)
  · rintro ⟨rfl, rfl⟩
    rfl

/-- **One reader after another** has a result exactly if the first one has, and what is made of
it has. -/
theorem map_pair_bind_eq_ok_iff {first : Reader α} {next : Taken α s → Except Fault (Taken β t)}
    {b : β} :
    (first s >>= next).map Taken.pair = .ok (b, r) ↔
      ∃ a s', first.Reads s a s' ∧ ∃ h, (next ⟨a, s', h⟩).map Taken.pair = .ok (b, r) := by
  constructor
  · intro hbind
    cases hfirst : first s with
    | error e =>
      rw [hfirst] at hbind
      cases hbind
    | ok taken =>
      rw [hfirst] at hbind
      exact ⟨_, _, Reader.reads_of_eq_ok hfirst, taken.bound, hbind⟩
  · rintro ⟨a, s', ⟨h, hfirst⟩, h', hnext⟩
    rw [hfirst]
    exact hnext

/-- If the first of two readers has a result, the second one goes on from it. -/
theorem Reader.Reads.bind {first : Reader α} {next : Taken α s → Except Fault (Taken β t)} {a : α}
    {b : β} (hfirst : first.Reads s a s')
    (hnext : ∀ h, (next ⟨a, s', h⟩).map Taken.pair = .ok (b, r)) :
    (first s >>= next).map Taken.pair = .ok (b, r) :=
  map_pair_bind_eq_ok_iff.mpr ⟨a, s', hfirst, hfirst.1, hnext hfirst.1⟩

/-- A judgement on the way has to accept. -/
theorem map_pair_judge_eq_ok_iff {judged : Except Fault α}
    {next : α → Except Fault (Taken β t)} {b : β} :
    (judged >>= next).map Taken.pair = .ok (b, r) ↔
      ∃ a, judged = .ok a ∧ (next a).map Taken.pair = .ok (b, r) := by
  cases judged with
  | error e =>
    constructor
    · intro h
      cases h
    · rintro ⟨a, h, -⟩
      cases h
  | ok a =>
    constructor
    · exact fun h => ⟨a, rfl, h⟩
    · rintro ⟨a', h, hnext⟩
      cases h
      exact hnext

section Keep

variable {read : Reader α} {last : Taken α s → Taken α t} {a : α}

/-- A reader whose bound is changed at the end has the results that it has. -/
theorem Reader.Reads.keep (h : read.Reads s a r)
    (hlast : ∀ taken, (last taken).pair = taken.pair) :
    (read s >>= fun taken => pure (last taken)).map Taken.pair = .ok (a, r) :=
  map_pair_bind_keep (Reader.reads_iff.mp h) hlast

theorem reads_of_keep
    (h : (read s >>= fun taken => pure (last taken)).map Taken.pair = .ok (a, r))
    (hlast : ∀ taken, (last taken).pair = taken.pair) : read.Reads s a r := by
  rw [map_pair_bind_keep rfl hlast] at h
  exact Reader.reads_iff.mpr h

end Keep

/-! ### Single symbols -/

/-- **After spaces the input begins with a symbol**, behind which the rest follows. -/
def Begins (s : Input) (x : Symbol) (r : Input) : Prop := ∃ h, s.next? = some ⟨x, r, h⟩

theorem Begins.unique (h : Begins s x r) (h' : Begins s x' r') : x = x' ∧ r = r' := by
  obtain ⟨b, hb⟩ := h
  obtain ⟨b', hb'⟩ := h'
  rw [hb] at hb'
  injection hb' with heq
  injection heq with hx hr
  exact ⟨hx, hr⟩

theorem Begins.isSpace (h : Begins s x r) : x.isSpace = false := by
  obtain ⟨b, hb⟩ := h
  induction s with
  | nil => cases hb
  | cons y s ih =>
    rw [Input.next?] at hb
    split at hb
    · split at hb
      · cases hb
      · next next hnext =>
        injection hb with heq
        injection heq with hx hr
        subst hx hr
        exact ih next.bound hnext
    · next hspace =>
      injection hb with heq
      injection heq with hx hr
      exact hx ▸ Bool.eq_false_iff.mpr hspace

/-- Without the spaces the input begins as it does with them. -/
theorem Begins.here (h : Begins s x r) : Begins (x :: r) x r :=
  ⟨_, next?_cons h.isSpace r⟩

/-- What does not begin with anything is left at the end. -/
theorem next?_eq_none_or_begins (s : Input) : s.next? = none ∨ ∃ x r, Begins s x r := by
  cases hnext : s.next? with
  | none => exact Or.inl rfl
  | some next => exact Or.inr ⟨next.symbol, next.rest, next.bound, hnext⟩

theorem expectSymbol_reads_iff {c : Char} {atEnd other : Fault} :
    (expectSymbol c atEnd other).Reads s () r ↔ Begins s (.char c) r := by
  rw [Reader.reads_iff, expectSymbol]
  rcases next?_eq_none_or_begins s with hnone | ⟨x, t, hx⟩
  · rw [hnone]
    constructor
    · intro h
      cases h
    · rintro ⟨b, hb⟩
      rw [hnone] at hb
      cases hb
  · obtain ⟨b, hnext⟩ := id hx
    rw [hnext]
    dsimp only
    constructor
    · intro h
      split at h
      · next hc =>
        obtain ⟨-, rfl⟩ := Prod.mk.inj (Except.ok.inj h)
        exact hc ▸ hx
      · cases h
    · intro hc
      obtain ⟨rfl, rfl⟩ := hx.unique hc
      rw [if_pos rfl]
      rfl

theorem colon_reads_iff : colon.Reads s () r ↔ Begins s (.char ':') r := expectSymbol_reads_iff

/-! ### Lexemes -/

section Lexemes

variable {c : Char} {l : Lexeme}

/-- A lexeme is known from its first character. -/
theorem lexeme_reads_iff :
    lexeme.Reads s l r ↔ ∃ c t, Begins s (.char c) t ∧
      ((c.isDigit = true ∧ (Reader.map .number (number false)).Reads (.char c :: t) l r) ∨
        (c.isDigit = false ∧ (lexemeAfter c).Reads t l r)) := by
  rw [Reader.reads_iff, lexeme]
  constructor
  · intro h
    split at h
    · cases h
    · cases h
    next c t b hnext =>
    refine ⟨c, t, ⟨b, hnext⟩, ?_⟩
    split at h
    · next hdigit => exact Or.inl ⟨hdigit, reads_of_keep h fun _ => rfl⟩
    · next hdigit =>
      exact Or.inr ⟨Bool.eq_false_iff.mpr hdigit, reads_of_keep h fun _ => rfl⟩
  · rintro ⟨c, t, ⟨b, hnext⟩, ⟨hdigit, hread⟩ | ⟨hdigit, hread⟩⟩
    · rw [hnext]
      dsimp only
      rw [if_pos hdigit]
      exact hread.keep fun _ => rfl
    · rw [hnext]
      dsimp only
      rw [if_neg (by rw [hdigit]; exact Bool.false_ne_true)]
      exact hread.keep fun _ => rfl

/-- Brackets and quotes begin nothing but arrays, objects and strings. -/
theorem lexemeAfter_reads_inversion (h : (lexemeAfter c).Reads t l r) :
    (l = .array → c = '[' ∧ t = r) ∧ (l = .object → c = '\x7b' ∧ t = r) ∧
      ∀ text, l = .string text → c = '"' ∧ string.Reads t text r := by
  rw [Reader.reads_iff] at h
  unfold lexemeAfter at h
  split at h
  case h_5 =>
    obtain ⟨text, hstring, rfl⟩ := Reader.reads_map_iff.mp (Reader.reads_iff.mpr h)
    exact ⟨by simp, by simp, fun text' h => ⟨rfl, Lexeme.string.inj h ▸ hstring⟩⟩
  case h_6 =>
    obtain ⟨rfl, rfl⟩ := Prod.mk.inj (Except.ok.inj h)
    exact ⟨fun _ => ⟨rfl, rfl⟩, by simp [Taken.nothing], by simp [Taken.nothing]⟩
  case h_7 =>
    obtain ⟨rfl, rfl⟩ := Prod.mk.inj (Except.ok.inj h)
    exact ⟨by simp [Taken.nothing], fun _ => ⟨rfl, rfl⟩, by simp [Taken.nothing]⟩
  case h_8 => cases h
  all_goals
    obtain ⟨_, _, rfl⟩ := Reader.reads_map_iff.mp (Reader.reads_iff.mpr h)
    exact ⟨by simp, by simp, by simp⟩

theorem lexeme_array_reads_iff : lexeme.Reads s .array r ↔ Begins s (.char '[') r := by
  rw [lexeme_reads_iff]
  constructor
  · rintro ⟨c, t, hbegins, ⟨-, hread⟩ | ⟨-, hread⟩⟩
    · obtain ⟨n, -, hn⟩ := Reader.reads_map_iff.mp hread
      cases hn
    · obtain ⟨rfl, rfl⟩ := (lexemeAfter_reads_inversion hread).1 rfl
      exact hbegins
  · intro hbegins
    exact ⟨_, r, hbegins, Or.inr ⟨rfl, Nat.le_refl _, rfl⟩⟩

theorem lexeme_object_reads_iff : lexeme.Reads s .object r ↔ Begins s (.char '\x7b') r := by
  rw [lexeme_reads_iff]
  constructor
  · rintro ⟨c, t, hbegins, ⟨-, hread⟩ | ⟨-, hread⟩⟩
    · obtain ⟨n, -, hn⟩ := Reader.reads_map_iff.mp hread
      cases hn
    · obtain ⟨rfl, rfl⟩ := (lexemeAfter_reads_inversion hread).2.1 rfl
      exact hbegins
  · intro hbegins
    exact ⟨_, r, hbegins, Or.inr ⟨rfl, Nat.le_refl _, rfl⟩⟩

theorem lexeme_string_reads_iff {text : String} :
    lexeme.Reads s (.string text) r ↔ ∃ t, Begins s (.char '"') t ∧ string.Reads t text r := by
  rw [lexeme_reads_iff]
  constructor
  · rintro ⟨c, t, hbegins, ⟨-, hread⟩ | ⟨-, hread⟩⟩
    · obtain ⟨n, -, hn⟩ := Reader.reads_map_iff.mp hread
      cases hn
    · obtain ⟨rfl, hstring⟩ := (lexemeAfter_reads_inversion hread).2.2 text rfl
      exact ⟨t, hbegins, hstring⟩
  · rintro ⟨t, hbegins, hstring⟩
    exact ⟨_, t, hbegins, Or.inr ⟨rfl, Reader.reads_map_iff.mpr ⟨text, hstring, rfl⟩⟩⟩

end Lexemes

/-! ### Between brackets -/

/-- Where the next item inside a bracket is looked for: the first one right here, and all
others behind a comma. -/
inductive Separated : Bool → Input → Input → Prop
  /-- Nothing stands before the first item. -/
  | first {s : Input} : Separated true s s
  /-- A comma stands before all others. -/
  | later {s r : Input} (comma : Begins s (.char ',') r) : Separated false s r

theorem Separated.unique {first : Bool} {s₁ s₁' : Input} (h : Separated first s s₁)
    (h' : Separated first s s₁') : s₁ = s₁' := by
  cases h with
  | first =>
    cases h'
    rfl
  | later hcomma =>
    cases h' with
    | later hcomma' => exact (hcomma.unique hcomma').2

/-- Where an item begins, the bracket is not closed: neither a comma nor the first symbol of an
item closes it. -/
theorem Separated.not_begins {first : Bool} {s₁ : Input} {c : Char} (h : Separated first s s₁)
    (hbegins : Begins s₁ x t) (hne : x ≠ .char c) (hc : c ≠ ',') : ¬ Begins s (.char c) r := by
  intro hclose
  cases h with
  | first => exact hne (hbegins.unique hclose).1
  | later hcomma => exact hc (Symbol.char.inj (hclose.unique hcomma).1)

/-- **What stands inside the bracket of an array**: elements, of which each is read by `item`,
and the closing bracket. -/
inductive ElementsRead (item : Reader α) : Bool → Input → List α → Input → Prop
  /-- The array ends. -/
  | nil {first : Bool} {s r : Input} (close : Begins s (.char ']') r) :
    ElementsRead item first s [] r
  /-- There is an element. -/
  | cons {first : Bool} {s s₁ s₂ s₃ r : Input} {x : Symbol} {a : α} {as : List α}
      (separated : Separated first s s₁) (begins : Begins s₁ x s₂) (ne : x ≠ .char ']')
      (head : item.Reads (x :: s₂) a s₃) (tail : ElementsRead item false s₃ as r) :
    ElementsRead item first s (a :: as) r

/-- A key is read where the next item is looked for. -/
def KeyRead (first : Bool) (s : Input) (key : String) (r : Input) : Prop :=
  ∃ s₁ s₂, Separated first s s₁ ∧ Begins s₁ (.char '"') s₂ ∧ string.Reads s₂ key r

/-- **What stands inside the brace of an object**: keys and values, of which each is read by
`item`, and the closing brace. The members stand in the order of the text, and a key may
occur more than once. -/
inductive MembersRead (item : Reader α) : Bool → Input → List (String × α) → Input → Prop
  /-- The object ends. -/
  | nil {first : Bool} {s r : Input} (close : Begins s (.char '\x7d') r) :
    MembersRead item first s [] r
  /-- There is a member. -/
  | cons {first : Bool} {s s₁ s₂ s₃ r : Input} {key : String} {a : α}
      {members : List (String × α)} (quoted : KeyRead first s key s₁)
      (colon : Begins s₁ (.char ':') s₂) (value : item.Reads s₂ a s₃)
      (tail : MembersRead item false s₃ members r) :
    MembersRead item first s ((key, a) :: members) r

/-! ### Arrays -/

section Arrays

variable {item : Reader α} {as : List α}

/-- What an array is read from, up to the second element. -/
theorem elementsRead_iff {first : Bool} :
    ElementsRead item first s as r ↔
      (as = [] ∧ Begins s (.char ']') r) ∨
        ∃ s₁ x s₂ a s₃ tail, as = a :: tail ∧ Separated first s s₁ ∧ Begins s₁ x s₂ ∧
          x ≠ .char ']' ∧ item.Reads (x :: s₂) a s₃ ∧ ElementsRead item false s₃ tail r := by
  constructor
  · rintro (hclose | ⟨hsep, hbegins, hne, hhead, htail⟩)
    · exact Or.inl ⟨rfl, hclose⟩
    · exact Or.inr ⟨_, _, _, _, _, _, rfl, hsep, hbegins, hne, hhead, htail⟩
  · rintro (⟨rfl, hclose⟩ | ⟨s₁, x, s₂, a, s₃, tail, rfl, hsep, hbegins, hne, hhead, htail⟩)
    · exact .nil hclose
    · exact .cons hsep hbegins hne hhead htail

/-- One step of the loop over elements. -/
theorem moreElements_reads_step :
    Reader.Reads (moreElements item) s as r ↔
      (as = [] ∧ Begins s (.char ']') r) ∨
        ∃ s₁ x s₂ a s₃ tail, as = a :: tail ∧ Separated false s s₁ ∧ Begins s₁ x s₂ ∧
          x ≠ .char ']' ∧ item.Reads (x :: s₂) a s₃ ∧
          Reader.Reads (moreElements item) s₃ tail r := by
  rw [Reader.reads_iff, moreElements]
  constructor
  · intro h
    split at h
    · cases h
    next x t b hx =>
    split at h
    · next hclose =>
      obtain ⟨rfl, rfl⟩ := Prod.mk.inj (Except.ok.inj h)
      exact Or.inl ⟨rfl, b, hclose ▸ hx⟩
    split at h
    · next hcomma =>
      split at h
      · cases h
      next y u b' hy =>
      split at h
      · cases h
      next hne =>
      obtain ⟨a, s₃, hhead, _, h⟩ := map_pair_bind_eq_ok_iff.mp h
      obtain ⟨tail, r', htail, _, h⟩ := map_pair_bind_eq_ok_iff.mp h
      obtain ⟨rfl, rfl⟩ := map_pair_pure_eq_ok_iff.mp h
      exact Or.inr ⟨t, y, u, a, s₃, tail, rfl, .later ⟨b, hcomma ▸ hx⟩, ⟨b', hy⟩, hne, hhead,
        htail⟩
    · cases h
  · rintro (⟨rfl, b, hclose⟩ | ⟨t, y, u, a, s₃, tail, rfl, hsep, ⟨b', hy⟩, hne, hhead, htail⟩)
    · rw [hclose]
      rfl
    · obtain ⟨b, hcomma⟩ : Begins s (.char ',') t := by
        cases hsep with
        | later hcomma => exact hcomma
      rw [hcomma]
      dsimp only
      rw [if_neg (by decide), if_pos rfl, hy]
      dsimp only
      rw [if_neg hne]
      exact hhead.bind fun _ => htail.bind fun _ => rfl

theorem moreElements_reads_iff :
    Reader.Reads (moreElements item) s as r ↔ ElementsRead item false s as r := by
  induction as generalizing s with
  | nil =>
    rw [moreElements_reads_step, elementsRead_iff]
    simp only [List.nil_eq, reduceCtorEq, false_and, exists_false]
  | cons a as ih =>
    rw [moreElements_reads_step, elementsRead_iff]
    simp only [reduceCtorEq, false_and, false_or]
    constructor
    · rintro ⟨s₁, x, s₂, b, s₃, tail, heq, hsep, hbegins, hne, hhead, htail⟩
      obtain ⟨rfl, rfl⟩ := List.cons.inj heq
      exact ⟨s₁, x, s₂, a, s₃, as, rfl, hsep, hbegins, hne, hhead, ih.mp htail⟩
    · rintro ⟨s₁, x, s₂, b, s₃, tail, heq, hsep, hbegins, hne, hhead, htail⟩
      obtain ⟨rfl, rfl⟩ := List.cons.inj heq
      exact ⟨s₁, x, s₂, a, s₃, as, rfl, hsep, hbegins, hne, hhead, ih.mpr htail⟩

/-- **The elements of an array** are read exactly if they stand there one by one. -/
theorem elements_reads_iff : (elements item).Reads s as r ↔ ElementsRead item true s as r := by
  rw [elementsRead_iff, Reader.reads_iff, elements]
  constructor
  · intro h
    split at h
    · cases h
    next x t b hx =>
    split at h
    · next hclose =>
      obtain ⟨rfl, rfl⟩ := Prod.mk.inj (Except.ok.inj h)
      exact Or.inl ⟨rfl, b, hclose ▸ hx⟩
    · next hne =>
      obtain ⟨a, s₃, hhead, _, h⟩ := map_pair_bind_eq_ok_iff.mp h
      obtain ⟨tail, r', htail, _, h⟩ := map_pair_bind_eq_ok_iff.mp h
      obtain ⟨rfl, rfl⟩ := map_pair_pure_eq_ok_iff.mp h
      exact Or.inr ⟨s, x, t, a, s₃, tail, rfl, .first, ⟨b, hx⟩, hne, hhead,
        moreElements_reads_iff.mp htail⟩
  · rintro (⟨rfl, b, hclose⟩ | ⟨t, y, u, a, s₃, tail, rfl, hsep, ⟨b', hy⟩, hne, hhead, htail⟩)
    · rw [hclose]
      rfl
    · cases hsep
      rw [hy]
      dsimp only
      rw [if_neg hne]
      have htail := moreElements_reads_iff.mpr htail
      exact hhead.bind fun _ => htail.bind fun _ => rfl

theorem endOfArray_reads_iff : endOfArray.Reads s () r ↔ Begins s (.char ']') r := by
  rw [Reader.reads_iff, endOfArray]
  constructor
  · intro h
    split at h
    · cases h
    next x t b hx =>
    split at h
    · next hclose =>
      obtain ⟨-, rfl⟩ := Prod.mk.inj (Except.ok.inj h)
      exact ⟨b, hclose ▸ hx⟩
    split at h
    · split at h
      · cases h
      · split at h <;> cases h
    · cases h
  · rintro ⟨b, hclose⟩
    rw [hclose]
    rfl

/-- The array ends here. -/
theorem nextElement_reads_false_iff {first : Bool} :
    (nextElement first).Reads s false r ↔ ∃ t, Begins s (.char ']') t ∧ r = .char ']' :: t := by
  rw [Reader.reads_iff, nextElement]
  constructor
  · intro h
    split at h
    · cases h
    next x t b hx =>
    split at h
    · next hclose =>
      obtain ⟨-, rfl⟩ := Prod.mk.inj (Except.ok.inj h)
      exact ⟨t, ⟨b, hclose ▸ hx⟩, hclose ▸ rfl⟩
    split at h
    · cases h
    split at h
    · split at h
      · cases h
      · split at h <;> cases h
    · cases h
  · rintro ⟨t, ⟨b, hclose⟩, rfl⟩
    rw [hclose]
    rfl

/-- An element begins where the next one is looked for. -/
theorem nextElement_reads_true_iff {first : Bool} :
    (nextElement first).Reads s true r ↔
      ∃ s₁ x t, Separated first s s₁ ∧ Begins s₁ x t ∧ x ≠ .char ']' ∧ r = x :: t := by
  rw [Reader.reads_iff, nextElement]
  constructor
  · intro h
    split at h
    · cases h
    next x t b hx =>
    split at h
    · cases h
    next hne =>
    split at h
    · next hfirst =>
      obtain ⟨-, rfl⟩ := Prod.mk.inj (Except.ok.inj h)
      subst hfirst
      exact ⟨s, x, t, .first, ⟨b, hx⟩, hne, rfl⟩
    next hfirst =>
    obtain rfl := Bool.eq_false_iff.mpr hfirst
    split at h
    · next hcomma =>
      split at h
      · cases h
      next y u b' hy =>
      split at h
      · cases h
      next hne' =>
      obtain ⟨-, rfl⟩ := Prod.mk.inj (Except.ok.inj h)
      exact ⟨t, y, u, .later ⟨b, hcomma ▸ hx⟩, ⟨b', hy⟩, hne', rfl⟩
    · cases h
  · rintro ⟨s₁, x, t, hsep, ⟨b, hx⟩, hne, rfl⟩
    cases hsep with
    | first =>
      rw [hx]
      dsimp only
      rw [if_neg hne, if_pos rfl]
      rfl
    | later hcomma =>
      obtain ⟨b', hcomma⟩ := hcomma
      rw [hcomma]
      dsimp only
      rw [if_neg (by decide), if_neg Bool.false_ne_true, if_pos rfl, hx]
      dsimp only
      rw [if_neg hne]
      rfl

end Arrays

/-! ### Objects -/

section Objects

variable {member : σ → String → Reader σ} {d d' : σ}

/-- **What stands inside the brace of an object**, with the state that the members are read
into. -/
inductive MembersRun (member : σ → String → Reader σ) : Bool → σ → Input → σ → Input → Prop
  /-- The object ends. -/
  | done {first : Bool} {d : σ} {s r : Input} (close : Begins s (.char '\x7d') r) :
    MembersRun member first d s d r
  /-- There is a member. -/
  | more {first : Bool} {d d' last : σ} {s s₁ s₂ r : Input} {key : String}
      (quoted : KeyRead first s key s₁) (step : (member d key).Reads s₁ d' s₂)
      (run : MembersRun member false d' s₂ last r) : MembersRun member first d s last r

theorem keyAndMember_reads_iff :
    (keyAndMember member d x).Reads s d' r ↔
      x = .char '"' ∧ ∃ key s₁, string.Reads s key s₁ ∧ (member d key).Reads s₁ d' r := by
  rw [Reader.reads_iff, keyAndMember]
  constructor
  · intro h
    split at h
    · next hquote =>
      obtain ⟨key, s₁, hkey, _, h⟩ := map_pair_bind_eq_ok_iff.mp h
      exact ⟨hquote, key, s₁, hkey, reads_of_keep h fun _ => rfl⟩
    · cases h
  · rintro ⟨rfl, key, s₁, hkey, hmember⟩
    rw [if_pos rfl]
    exact hkey.bind fun _ => hmember.keep fun _ => rfl

theorem moreMembers_reads_iff :
    Reader.Reads (moreMembers member d) s d' r ↔ MembersRun member false d s d' r := by
  constructor
  · intro h
    -- the rest of the loop has a shorter input
    induction hn : s.length using Nat.strongRecOn generalizing s d with
    | ind n ih =>
    rw [Reader.reads_iff, moreMembers] at h
    split at h
    · cases h
    next x t b hx =>
    split at h
    · next hclose =>
      obtain ⟨rfl, rfl⟩ := Prod.mk.inj (Except.ok.inj h)
      exact .done ⟨b, hclose ▸ hx⟩
    split at h
    · next hcomma =>
      split at h
      · cases h
      next y u b' hy =>
      split at h
      · cases h
      obtain ⟨d₁, s₂, hfirst, hshort, h⟩ := map_pair_bind_eq_ok_iff.mp h
      have hlast := reads_of_keep h fun _ => rfl
      obtain ⟨rfl, key, s₁, hkey, hmember⟩ := keyAndMember_reads_iff.mp hfirst
      exact .more ⟨t, u, .later ⟨b, hcomma ▸ hx⟩, ⟨b', hy⟩, hkey⟩ hmember
        (ih s₂.length (by omega) hlast rfl)
    · cases h
  · intro h
    generalize hfirst : false = first at h
    induction h with
    | done hclose =>
      obtain ⟨b, hclose⟩ := hclose
      rw [Reader.reads_iff, moreMembers, hclose]
      rfl
    | more hquoted hmember _ ih =>
      subst hfirst
      obtain ⟨t, u, hsep, ⟨b', hy⟩, hkey⟩ := hquoted
      cases hsep with
      | later hcomma =>
      obtain ⟨b, hcomma⟩ := hcomma
      rw [Reader.reads_iff, moreMembers, hcomma]
      dsimp only
      rw [if_neg (by decide), if_pos rfl, hy]
      dsimp only
      rw [if_neg (by decide)]
      have hnext := keyAndMember_reads_iff.mpr ⟨rfl, _, _, hkey, hmember⟩
      exact hnext.bind fun _ => Reader.Reads.keep (ih rfl) fun _ => rfl

/-- **The members of an object** are read exactly if they stand there one by one. -/
theorem members_reads_iff :
    (members member d).Reads s d' r ↔ MembersRun member true d s d' r := by
  rw [Reader.reads_iff, members]
  constructor
  · intro h
    split at h
    · cases h
    next x t b hx =>
    split at h
    · next hclose =>
      obtain ⟨rfl, rfl⟩ := Prod.mk.inj (Except.ok.inj h)
      exact .done ⟨b, hclose ▸ hx⟩
    · obtain ⟨d₁, s₂, hfirst, _, h⟩ := map_pair_bind_eq_ok_iff.mp h
      have hlast := reads_of_keep h fun _ => rfl
      obtain ⟨rfl, key, s₁, hkey, hmember⟩ := keyAndMember_reads_iff.mp hfirst
      exact .more ⟨s, t, .first, ⟨b, hx⟩, hkey⟩ hmember (moreMembers_reads_iff.mp hlast)
  · intro h
    cases h with
    | done hclose =>
      obtain ⟨b, hclose⟩ := hclose
      rw [hclose]
      rfl
    | more hquoted hmember hrun =>
      obtain ⟨t, u, hsep, ⟨b', hy⟩, hkey⟩ := hquoted
      cases hsep
      rw [hy]
      dsimp only
      rw [if_neg (by decide)]
      have hnext := keyAndMember_reads_iff.mpr ⟨rfl, _, _, hkey, hmember⟩
      exact hnext.bind fun _ => Reader.Reads.keep (moreMembers_reads_iff.mpr hrun) fun _ => rfl

/-- **Members that are only collected** are read exactly if they stand there one by one. -/
theorem members_reads_iff_of_collect {item : Reader α}
    {member : List (String × α) → String → Reader (List (String × α))}
    (hmember : ∀ before key s after r, (member before key).Reads s after r ↔
      ∃ s₁ a, Begins s (.char ':') s₁ ∧ item.Reads s₁ a r ∧ after = before ++ [(key, a)])
    {before after : List (String × α)} :
    (members member before).Reads s after r ↔
      ∃ read, MembersRead item true s read r ∧ after = before ++ read := by
  rw [members_reads_iff]
  generalize true = first
  constructor
  · intro h
    induction h with
    | done hclose => exact ⟨[], .nil hclose, (List.append_nil _).symm⟩
    | more hquoted hstep _ ih =>
      obtain ⟨s₁, a, hcolon, hvalue, rfl⟩ := (hmember ..).mp hstep
      obtain ⟨read, htail, rfl⟩ := ih
      exact ⟨_ :: read, .cons hquoted hcolon hvalue htail, List.append_assoc ..⟩
  · rintro ⟨read, hread, rfl⟩
    induction hread generalizing before with
    | nil hclose =>
      rw [List.append_nil]
      exact .done hclose
    | cons hquoted hcolon hvalue _ ih =>
      rw [List.append_cons]
      exact .more hquoted ((hmember ..).mpr ⟨_, _, hcolon, hvalue, rfl⟩) ih

end Objects

end ConfigSchema.Reading
