import ConfigSchema.Proofs.Reading.Parsed
import ConfigSchema.Reading.Skip

/-!
# What can be parsed can be skipped

A value that nobody asked for is passed over by a reader that is less strict than the one of
documents: it does not evaluate numbers, does not decode strings, and knows no limit to the
nesting. So it gets over whatever can be parsed, and it stops where the document ends
(`ConfigSchema.Reading.skip_of_parsed`).

The converse fails, and the faults differ. What is shown is therefore only that the skipping
succeeds: for words, numbers and strings on their own, and for arrays and objects by an
induction on what stands between their brackets, with the brackets around it on the stack.
-/

namespace ConfigSchema.Reading

open Json

variable {s t r : Input}

/-! ### Strings -/

theorem skipString_quote (r : Input) : Reader.Reads skipString (.char '"' :: r) () r := by
  rw [Reader.reads_iff, skipString, if_pos rfl]
  rfl

theorem skipString_escape (hescape : skipEscape.Reads s () t)
    (hrest : Reader.Reads skipString t () r) :
    Reader.Reads skipString (.char '\\' :: s) () r := by
  rw [Reader.reads_iff, skipString, if_neg (by decide), if_pos rfl]
  exact hescape.bind fun _ => hrest.keep fun _ => rfl

theorem skipString_symbol {x : Symbol} (hquote : x ≠ .char '"') (hbackslash : x ≠ .char '\\')
    (hcontrol : ¬ isControl x = true) (hrest : Reader.Reads skipString s () r) :
    Reader.Reads skipString (x :: s) () r := by
  rw [Reader.reads_iff, skipString, if_neg hquote, if_neg hbackslash,
    if_neg hcontrol]
  exact hrest.keep fun _ => rfl

/-- The four digits of an escape can be skipped. -/
theorem skipEscape_of_fourHexDigits {n : Nat} (h : fourHexDigits.Reads s n r) :
    skipEscape.Reads (.char 'u' :: s) () r := by
  rw [Reader.reads_iff, skipEscape]
  exact h.bind fun _ => rfl

theorem trailingSurrogate_reads {n : Nat} (h : trailingSurrogate.Reads s n r) :
    ∃ s', s = .char '\\' :: .char 'u' :: s' ∧ fourHexDigits.Reads s' n r ∧
      isTrailing n = true := by
  rw [Reader.reads_iff] at h
  unfold trailingSurrogate at h
  split at h
  · cases h
  · cases h
  · obtain ⟨m, r', hdigits, _, h⟩ := map_pair_bind_eq_ok_iff.mp h
    split at h
    · next htrailing =>
      obtain ⟨rfl, rfl⟩ := map_pair_pure_eq_ok_iff.mp h
      exact ⟨_, rfl, hdigits, htrailing⟩
    · cases h
  · cases h

/-- An escape that is read can be skipped, as one escape or, if it is a pair of surrogates, as
two. -/
theorem skipString_of_escape {c : Char} (h : escape.Reads s c t)
    (hrest : Reader.Reads skipString t () r) : Reader.Reads skipString (.char '\\' :: s) () r := by
  rw [Reader.reads_iff] at h
  unfold escape at h
  split at h
  · cases h
  · obtain ⟨n, t', hdigits, _, h⟩ := map_pair_bind_eq_ok_iff.mp h
    have hskip := skipEscape_of_fourHexDigits hdigits
    split at h
    · cases h
    split at h
    · obtain ⟨m, t'', htrailing, _, h⟩ := map_pair_bind_eq_ok_iff.mp h
      obtain ⟨rfl, rfl⟩ := map_pair_pure_eq_ok_iff.mp h
      obtain ⟨s', rfl, hdigits', -⟩ := trailingSurrogate_reads htrailing
      exact skipString_escape hskip
        (skipString_escape (skipEscape_of_fourHexDigits hdigits') hrest)
    · obtain ⟨rfl, rfl⟩ := map_pair_pure_eq_ok_iff.mp h
      exact skipString_escape hskip hrest
  · next c' s' hu =>
    split at h
    · next hshort =>
      obtain ⟨-, rfl⟩ := Prod.mk.inj (Except.ok.inj h)
      refine skipString_escape ?_ hrest
      have hskip : skipEscape (.char c' :: s') = .ok (Taken.nothing () s').afterFirst := by
        rw [skipEscape, hshort]
        · rfl
        · exact hu
      exact Reader.reads_iff.mpr (congrArg (Except.map Taken.pair) hskip)
    · cases h
  · cases h

/-- **A string that is read can be skipped.** -/
theorem skipString_of_string {text : String} (h : string.Reads s text r) :
    Reader.Reads skipString s () r := by
  have hsymbols : ∀ (s : Input) (xs : List Symbol), Reader.Reads stringSymbols s xs r →
      Reader.Reads skipString s () r := by
    intro s
    induction hn : s.length using Nat.strongRecOn generalizing s with
    | ind n ih =>
    intro xs h
    rw [Reader.reads_iff] at h
    cases s with
    | nil =>
      rw [stringSymbols] at h
      cases h
    | cons x s =>
    rw [stringSymbols] at h
    simp only [List.length_cons] at hn
    split at h
    · next hquote =>
      obtain ⟨-, rfl⟩ := Prod.mk.inj (Except.ok.inj h)
      exact hquote ▸ skipString_quote s
    next hquote =>
    split at h
    · next hbackslash =>
      obtain ⟨c, t, hescape, hshort, h⟩ := map_pair_bind_eq_ok_iff.mp h
      obtain ⟨more, r', hmore, _, h⟩ := map_pair_bind_eq_ok_iff.mp h
      obtain ⟨-, rfl⟩ := map_pair_pure_eq_ok_iff.mp h
      exact hbackslash ▸ skipString_of_escape hescape (ih t.length (by omega) t rfl more hmore)
    next hbackslash =>
    split at h
    · cases h
    next hcontrol =>
    obtain ⟨more, r', hmore, _, h⟩ := map_pair_bind_eq_ok_iff.mp h
    obtain ⟨-, rfl⟩ := map_pair_pure_eq_ok_iff.mp h
    exact skipString_symbol hquote hbackslash hcontrol (ih s.length (by omega) s rfl more hmore)
  rw [Reader.reads_iff, string] at h
  obtain ⟨xs, r', hread, _, h⟩ := map_pair_bind_eq_ok_iff.mp h
  split at h
  · obtain ⟨-, rfl⟩ := map_pair_pure_eq_ok_iff.mp h
    exact hsymbols s xs hread
  · cases h

/-! ### Numbers -/

section Numbers

open NumberLiteral

variable {α β ε : Type} {atEnd : Fault} (atEnd' : Fault) 

/-- An outcome is at least as often a result as another one, and then the same. -/
def Covers (x y : Except ε α) : Prop := ∀ a, y = .ok a → x = .ok a

theorem Covers.refl (x : Except ε α) : Covers x x := fun _ h => h

theorem Covers.bind {x y : Except ε α} {f g : α → Except ε β} (h : Covers x y)
    (hf : ∀ a, Covers (f a) (g a)) : Covers (x >>= f) (y >>= g) := by
  intro b hb
  obtain ⟨a, ha, hb⟩ := Outcome.bind_eq_ok_iff.mp hb
  exact Outcome.bind_eq_ok_iff.mpr ⟨a, h a ha, hf a b hb⟩

theorem covers_someDigits (s : Input) : Covers (someDigits atEnd' s) (someDigits atEnd s) := by
  cases s with
  | nil =>
    intro a h
    cases h
  | cons x s => exact .refl _

theorem covers_wholePart (s : Input) : Covers (wholePart atEnd' s) (wholePart atEnd s) :=
  (covers_someDigits atEnd' s).bind fun _ => .refl _

theorem covers_fractionPart (s : Input) :
    Covers (fractionPart atEnd' s) (fractionPart atEnd s) := by
  unfold fractionPart
  split
  · exact (covers_someDigits atEnd' _).bind fun _ => .refl _
  · exact .refl _

theorem covers_exponentPart (s : Input) :
    Covers (exponentPart atEnd' s) (exponentPart atEnd s) := by
  unfold exponentPart
  dsimp only
  split
  · exact ((covers_someDigits atEnd' _).bind fun _ => .refl _).bind fun _ => .refl _
  · exact ((covers_someDigits atEnd' _).bind fun _ => .refl _).bind fun _ => .refl _
  · exact .refl _

theorem readUnsigned_of_readUnsigned {negative negative' : Bool} {l : NumberLiteral}
    (h : (readUnsigned atEnd negative).Reads s l r) :
    (readUnsigned atEnd' negative').Reads s { l with negative := negative' } r := by
  rw [Reader.reads_iff, readUnsigned] at h ⊢
  obtain ⟨whole, s₁, ⟨b₁, h₁⟩, _, h⟩ := map_pair_bind_eq_ok_iff.mp h
  obtain ⟨fraction, s₂, ⟨b₂, h₂⟩, _, h⟩ := map_pair_bind_eq_ok_iff.mp h
  obtain ⟨exponent, s₃, ⟨b₃, h₃⟩, _, h⟩ := map_pair_bind_eq_ok_iff.mp h
  obtain ⟨rfl, rfl⟩ := map_pair_pure_eq_ok_iff.mp h
  rw [covers_wholePart atEnd' s _ h₁]
  show Except.map _ (fractionPart atEnd' s₁ >>= _) = _
  rw [covers_fractionPart atEnd' s₁ _ h₂]
  show Except.map _ (exponentPart atEnd' s₂ >>= _) = _
  rw [covers_exponentPart atEnd' s₂ _ h₃]
  rfl
end Numbers

/-! ### Lexemes -/

section Lexemes

variable {l : Lexeme}

/-- A number that is read can be skipped. -/
theorem skipNumber_of_number {negative : Bool} {n : Json.Number}
    (h : (number negative).Reads s n r) : skipNumber.Reads s () r := by
  rw [Reader.reads_iff, number] at h
  obtain ⟨literal, t, hliteral, _, h⟩ := map_pair_bind_eq_ok_iff.mp h
  obtain ⟨value, -, h⟩ := map_pair_judge_eq_ok_iff.mp h
  obtain ⟨-, rfl⟩ := map_pair_pure_eq_ok_iff.mp h
  exact Reader.reads_map_iff.mpr ⟨_, readUnsigned_of_readUnsigned .invalidNumber hliteral, rfl⟩

/-- **A lexeme that opens no bracket can be skipped.** -/
theorem skipScalar_of_lexeme (h : lexeme.Reads s l r) (harray : l ≠ .array)
    (hobject : l ≠ .object) :
    ∃ x t, Begins s x t ∧ Bracket.opened? x = none ∧ skipScalar.Reads (x :: t) () r := by
  obtain ⟨c, t, hbegins, ⟨hdigit, hread⟩ | ⟨hdigit, hread⟩⟩ := lexeme_reads_iff.mp h
  · obtain ⟨n, hnumber, rfl⟩ := Reader.reads_map_iff.mp hread
    refine ⟨_, t, hbegins, ?_, ?_⟩
    · have hbracket : ∀ c : Char, c.isDigit = true → c ≠ '[' ∧ c ≠ '\x7b' := by
        rintro c hc
        constructor <;> rintro rfl <;> cases hc
      unfold Bracket.opened?
      split
      · next heq => exact absurd (Symbol.char.inj heq) (hbracket c hdigit).1
      · next heq => exact absurd (Symbol.char.inj heq) (hbracket c hdigit).2
      · rfl
    · rw [Reader.reads_iff, skipScalar, if_pos hdigit]
      exact Reader.reads_iff.mp (skipNumber_of_number hnumber)
  refine ⟨_, t, hbegins, ?_⟩
  have hskip {read : Reader Unit} (hread : read.Reads t () r)
      (hscalar : skipScalar (.char c :: t) = read t >>= fun taken => pure taken.afterFirst) :
      skipScalar.Reads (.char c :: t) () r := by
    rw [Reader.reads_iff, hscalar]
    exact hread.keep fun _ => rfl
  rw [Reader.reads_iff] at hread
  unfold lexemeAfter at hread
  split at hread
  case h_4 =>
    obtain ⟨n, hnumber, -⟩ := Reader.reads_map_iff.mp (Reader.reads_iff.mpr hread)
    exact ⟨rfl, hskip (skipNumber_of_number hnumber) rfl⟩
  case h_5 =>
    obtain ⟨text, hstring, -⟩ := Reader.reads_map_iff.mp (Reader.reads_iff.mpr hread)
    exact ⟨rfl, hskip (skipString_of_string hstring) rfl⟩
  case h_6 => exact absurd (Prod.mk.inj (Except.ok.inj hread)).1.symm harray
  case h_7 => exact absurd (Prod.mk.inj (Except.ok.inj hread)).1.symm hobject
  case h_8 => cases hread
  -- the three words
  all_goals
    obtain ⟨⟨⟩, hword, -⟩ := Reader.reads_map_iff.mp (Reader.reads_iff.mpr hread)
    exact ⟨rfl, hskip hword rfl⟩

end Lexemes

/-! ### Brackets -/

section Brackets

variable {stack outer : List Bracket} {b : Bracket} {x y : Symbol} {s' s₁ : Input}

/-- The skipping gets from before a value to the end. -/
def Skips (stack : List Bracket) (s r : Input) : Prop := Reader.Reads (skipValue stack) s () r

/-- The skipping gets from behind a value to the end. -/
def SkipsAfter (stack : List Bracket) (s r : Input) : Prop :=
  Reader.Reads (skipAfterValue stack) s () r

theorem skipsAfter_nil (s : Input) : SkipsAfter [] s s := by
  rw [SkipsAfter, Reader.reads_iff, skipAfterValue]
  rfl

theorem Skips.scalar (hbegins : Begins s x t) (hopened : Bracket.opened? x = none)
    (hscalar : skipScalar.Reads (x :: t) () s₁) (hafter : SkipsAfter stack s₁ r) :
    Skips stack s r := by
  obtain ⟨_, hnext⟩ := hbegins
  rw [Skips, Reader.reads_iff, skipValue, hnext]
  dsimp only
  split
  · exact hscalar.bind fun _ => hafter.keep fun _ => rfl
  · next b hb =>
    rw [hb] at hopened
    cases hopened

/-- A bracket that is closed at once. -/
theorem Skips.empty (hbegins : Begins s x t) (hopened : Bracket.opened? x = some b)
    (hclose : Begins t (.char b.closing) s₁) (hafter : SkipsAfter stack s₁ r) :
    Skips stack s r := by
  obtain ⟨_, hnext⟩ := hbegins
  obtain ⟨_, hclose⟩ := hclose
  rw [Skips, Reader.reads_iff, skipValue, hnext]
  dsimp only
  split
  · next hb =>
    rw [hb] at hopened
    cases hopened
  · next b' hb =>
    obtain rfl := Option.some.inj (hb.symm.trans hopened)
    rw [hclose]
    dsimp only
    rw [if_pos rfl]
    exact hafter.keep fun _ => rfl

/-- A bracket with something in it. -/
theorem Skips.open (hbegins : Begins s x t) (hopened : Bracket.opened? x = some b)
    (hinside : Begins t y s') (hne : y ≠ .char b.closing) (hbefore : (skipBefore b).Reads t () s₁)
    (hvalue : Skips (b :: stack) s₁ r) : Skips stack s r := by
  obtain ⟨_, hnext⟩ := hbegins
  obtain ⟨_, hinside⟩ := hinside
  rw [Skips, Reader.reads_iff, skipValue, hnext]
  dsimp only
  split
  · next hb =>
    rw [hb] at hopened
    cases hopened
  · next b' hb =>
    obtain rfl := Option.some.inj (hb.symm.trans hopened)
    rw [hinside]
    dsimp only
    rw [if_neg hne]
    exact hbefore.bind fun _ => hvalue.keep fun _ => rfl

theorem SkipsAfter.close (hclose : Begins s (.char b.closing) t) (hafter : SkipsAfter outer t r) :
    SkipsAfter (b :: outer) s r := by
  obtain ⟨_, hnext⟩ := hclose
  have hcomma : Symbol.char b.closing ≠ .char ',' := by cases b <;> decide
  rw [SkipsAfter, Reader.reads_iff, skipAfterValue, hnext]
  dsimp only
  rw [if_neg hcomma, if_pos rfl]
  exact hafter.keep fun _ => rfl

theorem SkipsAfter.comma (hcomma : Begins s (.char ',') t)
    (hbefore : (skipBefore b).Reads t () s₁) (hvalue : Skips (b :: outer) s₁ r) :
    SkipsAfter (b :: outer) s r := by
  obtain ⟨_, hnext⟩ := hcomma
  rw [SkipsAfter, Reader.reads_iff, skipAfterValue, hnext]
  dsimp only
  rw [if_pos rfl]
  exact hbefore.bind fun _ => hvalue.keep fun _ => rfl

/-- A key and its colon can be skipped. -/
theorem skipKey_reads {key : String} (hquote : Begins s (.char '"') s₁)
    (hkey : string.Reads s₁ key t) (hcolon : Begins t (.char ':') r) : skipKey.Reads s () r := by
  have hquote : (expectSymbol '"' .endInObject .keyNotString).Reads s () s₁ :=
    expectSymbol_reads_iff.mpr hquote
  have hkey := skipString_of_string hkey
  have hcolon := colon_reads_iff.mpr hcolon
  rw [Reader.reads_iff, skipKey]
  exact hquote.bind fun _ => hkey.bind fun _ => hcolon.bind fun _ => rfl

end Brackets

/-! ### Documents -/

section Documents

variable {n : Nat} {stack : List Bracket}

/-- What is to be shown of the documents with a number of levels: where one of them stands, the
skipping gets to its end. Spaces before it may have been passed already. -/
def Skippable (item : Reader Parsed) : Prop :=
  ∀ ⦃s s₀ : Input⦄ ⦃w : Parsed⦄ ⦃r t : Input⦄ ⦃stack : List Bracket⦄, item.Reads s w r →
    (∀ x u, Begins s x u → Begins s₀ x u) → SkipsAfter stack r t → Skips stack s₀ t

/-- Behind an element the skipping gets to the end of the array. -/
theorem skipsAfter_of_elementsRead {item : Reader Parsed} {items : List Parsed}
    (hitem : Skippable item) (h : ElementsRead item false s items r)
    (hafter : SkipsAfter stack r t) : SkipsAfter (.array :: stack) s t := by
  generalize hfirst : false = first at h
  induction h with
  | nil hclose => exact .close hclose hafter
  | cons hsep hbegins hne hhead _ ih =>
    subst hfirst
    cases hsep with
    | later hcomma =>
      refine .comma hcomma ⟨Nat.le_refl _, rfl⟩ (hitem hhead ?_ (ih hafter rfl))
      rintro x u hx
      obtain ⟨rfl, rfl⟩ := hx.unique hbegins.here
      exact hbegins

/-- Behind a member the skipping gets to the end of the object. -/
theorem skipsAfter_of_membersRead {item : Reader Parsed} {read : List (String × Parsed)}
    (hitem : Skippable item) (h : MembersRead item false s read r)
    (hafter : SkipsAfter stack r t) : SkipsAfter (.object :: stack) s t := by
  generalize hfirst : false = first at h
  induction h with
  | nil hclose => exact .close hclose hafter
  | cons hquoted hcolon hvalue _ ih =>
    subst hfirst
    obtain ⟨s₁, s₂, hsep, hquote, hkey⟩ := hquoted
    cases hsep with
    | later hcomma =>
      exact .comma hcomma (skipKey_reads hquote hkey hcolon)
        (hitem hvalue (fun _ _ => id) (ih hafter rfl))

theorem skips_of_scalar {w : Parsed} {s₀ : Input} (hscalar : w.isScalar = true)
    (h : lexeme.Reads s (.ofTree w.tree) r) (hs₀ : ∀ x u, Begins s x u → Begins s₀ x u)
    (hafter : SkipsAfter stack r t) : Skips stack s₀ t := by
  obtain ⟨harray, hobject⟩ := lexeme_ne_of_isScalar hscalar
  obtain ⟨x, u, hbegins, hopened, hskip⟩ := skipScalar_of_lexeme h harray hobject
  exact .scalar (hs₀ x u hbegins) hopened hskip hafter

theorem skippable_parsed (n : Nat) : Skippable (parsed n) := by
  -- the levels are those of the document: the stack grows as they are used up
  induction n with
  | zero =>
    intro s s₀ w r t stack h hs₀ hafter
    cases valueRead_of_parsed h with
    | scalar hscalar hhead => exact skips_of_scalar hscalar hhead hs₀ hafter
  | succ n ih =>
    intro s s₀ w r t stack h hs₀ hafter
    cases valueRead_of_parsed h with
    | scalar hscalar hhead => exact skips_of_scalar hscalar hhead hs₀ hafter
    | array hhead hitems =>
      have hopen := hs₀ _ _ (lexeme_array_reads_iff.mp hhead)
      cases hitems with
      | nil hclose => exact .empty hopen rfl hclose hafter
      | cons hsep hbegins hne hitem htail =>
        cases hsep
        refine .open hopen rfl hbegins hne ⟨Nat.le_refl _, rfl⟩
          (ih hitem ?_ (skipsAfter_of_elementsRead ih htail hafter))
        rintro x u hx
        obtain ⟨rfl, rfl⟩ := hx.unique hbegins.here
        exact hbegins
    | object hhead hread =>
      have hopen := hs₀ _ _ (lexeme_object_reads_iff.mp hhead)
      cases hread with
      | nil hclose => exact .empty hopen rfl hclose hafter
      | cons hquoted hcolon hvalue htail =>
        obtain ⟨s₁, s₂, hsep, hquote, hkey⟩ := hquoted
        cases hsep
        exact .open hopen rfl hquote (by decide) (skipKey_reads hquote hkey hcolon)
          (ih hvalue (fun _ _ => id) (skipsAfter_of_membersRead ih htail hafter))

/-- **What can be parsed can be skipped**, up to the same place. -/
theorem skip_of_parsed {w : Parsed} (h : (parsed n).Reads s w r) : skip.Reads s () r :=
  skippable_parsed n h (fun _ _ => id) (skipsAfter_nil r)

end Documents

end ConfigSchema.Reading
