import ConfigSchema.Proofs.Json.Grammar
import ConfigSchema.Proofs.Reading.Skipped

/-!
# Well-formed values can be skipped

The reader that passes over a value which nobody asked for knows the whole grammar of documents:
it gets from before a well-formed value to its end, whatever the value is and however deep it is
nested (`ConfigSchema.Reading.skip_of_isValue`). Only a number needs to know what stands behind it,
since its end is not written: there may be no further digit, and nothing else that would go on with
the number (`ConfigSchema.Reading.Delimited`). Inside brackets that is never the case, for a comma
or the closing bracket follows.

The values inside a value are skipped with the brackets around them on a stack, so what is shown by
induction speaks of any stack that can be skipped from behind the value
(`ConfigSchema.Reading.SkippableText`).
-/

namespace ConfigSchema.Reading

open Json.Grammar

variable {s r t : Input} {ws text : List Char}

/-! ### Spaces -/

theorem isSpace_of_mem {c : Char} (h : c ∈ [' ', '\t', '\n', '\r']) :
    (Symbol.char c).isSpace = true := by
  have hspaces : ∀ c ∈ [' ', '\t', '\n', '\r'], (Symbol.char c).isSpace = true :=
    List.forall_iff_forall_mem.mp (by decide)
  exact hspaces c h

/-- After spaces the input begins with what stands behind them. -/
theorem begins_spaces {x : Symbol} (h : IsSpaces ws) (hx : x.isSpace = false) :
    Begins (symbols ws ++ x :: r) x r := by
  induction ws with
  | nil => exact ⟨_, next?_cons hx r⟩
  | cons c ws ih =>
    obtain ⟨hc, hws⟩ := List.forall_mem_cons.mp h
    obtain ⟨hlt, hnext⟩ := ih hws
    refine ⟨Nat.lt_succ_of_lt hlt, ?_⟩
    show Input.next? (.char c :: (symbols ws ++ x :: r)) = _
    rw [Input.next?, if_pos (isSpace_of_mem hc), hnext]
    rfl

/-- Behind spaces that end the input there is nothing. -/
theorem next?_spaces (h : IsSpaces ws) : Input.next? (symbols ws) = none := by
  induction ws with
  | nil => rfl
  | cons c ws ih =>
    obtain ⟨hc, hws⟩ := List.forall_mem_cons.mp h
    rw [symbols_cons, Input.next?, if_pos (isSpace_of_mem hc), ih hws]

/-- **A number ends here**: nothing follows that would go on with it. -/
def Delimited (r : Input) : Prop :=
  ∀ c t, r = .char c :: t → c.isDigit = false ∧ c ∉ ['.', 'e', 'E']

/-- A number ends before spaces and before what separates or closes. -/
theorem delimited_spaces {c : Char} (h : IsSpaces ws) (hc : c ∈ [',', ']', '\x7d']) :
    Delimited (symbols ws ++ .char c :: r) := by
  have hend : ∀ c ∈ [',', ']', '\x7d', ' ', '\t', '\n', '\r'],
      c.isDigit = false ∧ c ∉ ['.', 'e', 'E'] :=
    List.forall_iff_forall_mem.mp (by decide)
  intro d t heq
  cases ws with
  | nil =>
    obtain ⟨hd, -⟩ := List.cons.inj heq
    obtain rfl := Symbol.char.inj hd
    exact hend c (List.mem_append_left [' ', '\t', '\n', '\r'] hc)
  | cons e ws =>
    obtain ⟨hd, -⟩ := List.cons.inj heq
    obtain rfl := Symbol.char.inj hd
    exact hend e (List.mem_append_right [',', ']', '\x7d'] (h e List.mem_cons_self))

/-! ### Strings -/

/-- A digit in base sixteen is read as its value, and has one byte. -/
theorem hexDigit?_of_isHexDigit {c : Char} (h : IsHexDigit c) :
    (Symbol.char c).hexDigit? = some (hexValue c) ∧ (Symbol.char c).width = 1 := by
  have hdigits : ∀ c ∈ ['0', '1', '2', '3', '4', '5', '6', '7', '8', '9',
      'a', 'b', 'c', 'd', 'e', 'f', 'A', 'B', 'C', 'D', 'E', 'F'],
      (Symbol.char c).hexDigit? = some (hexValue c) ∧ (Symbol.char c).width = 1 :=
    List.forall_iff_forall_mem.mp (by decide)
  exact hdigits c h

/-- Four digits are read as their value. -/
theorem fourHexDigits_of_isUnit {digits : List Char} {n : Nat} (h : IsUnit digits n) (r : Input) :
    fourHexDigits.Reads (symbols digits ++ r) n r := by
  obtain ⟨ha, hb, hc, hd⟩ := h
  obtain ⟨ha, hawidth⟩ := hexDigit?_of_isHexDigit ha
  obtain ⟨hb, hbwidth⟩ := hexDigit?_of_isHexDigit hb
  obtain ⟨hc, hcwidth⟩ := hexDigit?_of_isHexDigit hc
  obtain ⟨hd, hdwidth⟩ := hexDigit?_of_isHexDigit hd
  rw [Reader.reads_iff]
  simp only [fourHexDigits, symbols_cons, symbols_nil, List.cons_append, List.nil_append,
    List.take_succ_cons, List.take_zero, List.foldr_cons, List.foldr_nil, hawidth, hbwidth,
    hcwidth, hdwidth, ha, hb, hc, hd]
  rw [if_neg (by decide)]
  rfl

/-- A letter behind a backslash stands for a character. -/
theorem shortEscape?_of_mem_letters {entry : Char × Char} (h : entry ∈ letters) :
    entry.1 ≠ 'u' ∧ shortEscape? entry.1 = some entry.2 := by
  have hletters : ∀ entry ∈ letters, entry.1 ≠ 'u' ∧ shortEscape? entry.1 = some entry.2 :=
    List.forall_iff_forall_mem.mp (by decide)
  exact hletters entry h

/-- A character that stands for itself is none of those that do not. -/
theorem symbol_ne_of_isPlain {c : Char} (h : IsPlain c) :
    Symbol.char c ≠ .char '"' ∧ Symbol.char c ≠ .char '\\' ∧ ¬ isControl (.char c) = true :=
  ⟨fun heq => h.ne_quote (Symbol.char.inj heq), fun heq => h.ne_backslash (Symbol.char.inj heq),
    by simpa [isControl] using h.not_control⟩

/-- **A string is skipped** up to its closing quote. -/
theorem skipString_of_isStringBody {body : List Char} (h : IsStringBody body) (r : Input) :
    Reader.Reads skipString (symbols body ++ .char '"' :: r) () r := by
  induction h with
  | nil => exact skipString_quote r
  | plain hplain _ ih =>
    obtain ⟨hquote, hbackslash, hcontrol⟩ := symbol_ne_of_isPlain hplain
    exact skipString_symbol hquote hbackslash hcontrol ih
  | @letter entry body hmem _ ih =>
    obtain ⟨hu, hshort⟩ := shortEscape?_of_mem_letters hmem
    refine skipString_escape ?_ ih
    have hskip : skipEscape (.char entry.1 :: (symbols body ++ .char '"' :: r)) =
        .ok (Taken.nothing () (symbols body ++ .char '"' :: r)).afterFirst := by
      rw [skipEscape, hshort]
      · rfl
      · exact hu
    exact Reader.reads_iff.mpr (congrArg (Except.map Taken.pair) hskip)
  | @unit digits body n hunit _ ih =>
    have hdigits := fourHexDigits_of_isUnit hunit (symbols body ++ .char '"' :: r)
    rw [List.cons_append, List.cons_append, symbols_cons, symbols_cons, symbols_append,
      List.cons_append, List.cons_append, List.append_assoc]
    exact skipString_escape (skipEscape_of_fourHexDigits hdigits) ih

/-! ### Numbers -/

namespace NumberLiteral

/-- The values of digits. -/
def digitValues (ds : List Char) : List Nat := ds.map fun c => c.toNat - '0'.toNat

/-- A digit is taken before what is taken behind it. -/
theorem digits_cons {x : Symbol} {d : Nat} (h : x.digit? = some d) (s : Input) :
    (digits (x :: s)).pair = (d :: (digits s).value, (digits s).rest) := by
  rw [digits]
  split
  · next hnone =>
    rw [h] at hnone
    cases hnone
  · next d' hd =>
    obtain rfl := Option.some.inj (h.symm.trans hd)
    rfl

/-- All digits are taken, up to what is no digit. -/
theorem digits_of_isDigit {ds : List Char} (hds : ∀ c ∈ ds, c.isDigit = true)
    (hr : ∀ c t, r = .char c :: t → c.isDigit = false) :
    (digits (symbols ds ++ r)).pair = (digitValues ds, r) := by
  induction ds with
  | nil =>
    cases r with
    | nil => rfl
    | cons x r =>
      have hx : x.digit? = none := by
        cases x with
        | char c =>
          rw [Symbol.digit?, if_neg]
          rw [hr c r rfl]
          exact Bool.false_ne_true
        | stray => rfl
      rw [symbols_nil, List.nil_append, digits]
      split
      · rfl
      · next d hd =>
        rw [hx] at hd
        cases hd
  | cons c ds ih =>
    obtain ⟨hc, hds⟩ := List.forall_mem_cons.mp hds
    have hdigit : (Symbol.char c).digit? = some (c.toNat - '0'.toNat) := if_pos hc
    obtain ⟨hvalue, hrest⟩ := Prod.mk.inj (ih hds)
    rw [symbols_cons, List.cons_append, digits_cons hdigit]
    exact Prod.ext (congrArg (List.cons _) hvalue) hrest

/-- Digits of which there is one are read. -/
theorem someDigits_of_isDigits {ds : List Char} (atEnd : Fault) (hds : IsDigits ds)
    (hr : ∀ c t, r = .char c :: t → c.isDigit = false) :
    (someDigits atEnd).Reads (symbols ds ++ r) (digitValues ds) r := by
  obtain ⟨hne, hdigits⟩ := hds
  have htaken := digits_of_isDigit hdigits hr
  cases ds with
  | nil => exact absurd rfl hne
  | cons c ds =>
    have hdigit : (Symbol.char c).digit? = some (c.toNat - '0'.toNat) :=
      if_pos (hdigits c List.mem_cons_self)
    rw [symbols_cons, List.cons_append] at htaken ⊢
    rw [Reader.reads_iff, someDigits, hdigit, if_neg (by simp)]
    exact congrArg Except.ok htaken

/-- A digit other than zero has another value. -/
theorem toNat_sub_ne_zero {c : Char} (hdigit : c.isDigit = true) (hc : c ≠ '0') :
    c.toNat - '0'.toNat ≠ 0 := by
  have hleast : '0'.toNat ≤ c.toNat := by
    simp only [Char.isDigit, Bool.and_eq_true, decide_eq_true_eq] at hdigit
    exact hdigit.1
  intro hzero
  exact hc (Char.toNat_inj.mp (Nat.le_antisymm (Nat.sub_eq_zero_iff_le.mp hzero) hleast))

theorem wholePart_of_isWhole {ds : List Char} (atEnd : Fault) (hds : IsWhole ds)
    (hr : ∀ c t, r = .char c :: t → c.isDigit = false) :
    (wholePart atEnd).Reads (symbols ds ++ r) (digitValues ds) r := by
  obtain ⟨hdigits, hzero⟩ := hds
  rw [Reader.reads_iff, wholePart]
  refine (someDigits_of_isDigits atEnd hdigits hr).bind fun _ => ?_
  dsimp only
  split
  · next d ds' heq =>
    -- a zero at the front is not alone
    obtain ⟨c, cs, rfl, hc, hcs⟩ := List.map_eq_cons_iff.mp heq
    by_cases h : c = '0'
    · obtain ⟨-, rfl⟩ := List.cons.inj (hzero (congrArg some h))
      cases hcs
    · exact absurd hc (toNat_sub_ne_zero (hdigits.2 c List.mem_cons_self) h)
  · rfl

/-- What follows the digits before the point is no digit. -/
theorem isDigit_of_fraction {fraction exponent : List Char} {c : Char}
    (hfraction : IsFraction fraction) (hexponent : IsExponent exponent) (hr : Delimited r)
    (h : symbols fraction ++ (symbols exponent ++ r) = .char c :: t) : c.isDigit = false := by
  cases hfraction with
  | some =>
    obtain ⟨hc, -⟩ := List.cons.inj h
    obtain rfl := Symbol.char.inj hc
    rfl
  | none =>
    cases hexponent with
    | none => exact (hr c t h).1
    | some hletter =>
      obtain ⟨hc, -⟩ := List.cons.inj h
      obtain rfl := Symbol.char.inj hc
      have hletters : ∀ e ∈ ['e', 'E'], e.isDigit = false :=
        List.forall_iff_forall_mem.mp (by decide)
      exact hletters _ hletter

/-- Without a point there is no fraction. -/
theorem fractionPart_of_ne {atEnd : Fault} (h : ∀ t, r ≠ .char '.' :: t) :
    (fractionPart atEnd).Reads r none r := by
  refine ⟨Nat.le_refl _, ?_⟩
  unfold fractionPart
  split
  · next t => exact absurd rfl (h t)
  · rfl

/-- A fraction is read, if there is one. -/
theorem fractionPart_of_isFraction {fraction exponent : List Char} (atEnd : Fault)
    (hfraction : IsFraction fraction) (hexponent : IsExponent exponent) (hr : Delimited r) :
    ∃ ds, (fractionPart atEnd).Reads (symbols fraction ++ (symbols exponent ++ r)) ds
      (symbols exponent ++ r) := by
  cases hfraction with
  | none =>
    refine ⟨none, fractionPart_of_ne fun t heq => ?_⟩
    -- neither an exponent nor what follows a number begins with a point
    cases hexponent with
    | none => exact (hr '.' t heq).2 (by simp)
    | some hletter =>
      rw [Symbol.char.inj (List.cons.inj heq).1] at hletter
      exact absurd hletter (by decide)
  | @some ds hdigits =>
    have hread := someDigits_of_isDigits atEnd hdigits
      fun c t h => isDigit_of_fraction .none hexponent hr h
    refine ⟨some (digitValues ds), Reader.reads_iff.mpr ?_⟩
    show Except.map _ (fractionPart atEnd
      (.char '.' :: (symbols ds ++ (symbols exponent ++ r)))) = _
    rw [fractionPart]
    exact hread.bind fun _ => rfl

/-- Without a plus or a minus there is no sign. -/
theorem exponentSign_of_ne (hplus : ∀ t, r ≠ .char '+' :: t) (hminus : ∀ t, r ≠ .char '-' :: t) :
    (exponentSign r).rest = r := by
  unfold exponentSign
  split
  · next t => exact absurd rfl (hplus t)
  · next t => exact absurd rfl (hminus t)
  · rfl

/-- The sign of an exponent is read, if there is one. -/
theorem exponentSign_of_mem {sign ds : List Char} (hsign : sign ∈ [[], ['+'], ['-']])
    (hds : IsDigits ds) :
    (exponentSign (symbols sign ++ (symbols ds ++ r))).rest = symbols ds ++ r := by
  simp only [List.mem_cons, List.not_mem_nil, or_false] at hsign
  rcases hsign with rfl | rfl | rfl
  · obtain ⟨hne, hdigits⟩ := hds
    have hfirst : ∀ c t, symbols ds ++ r = .char c :: t → c.isDigit = true := by
      intro c t heq
      cases ds with
      | nil => exact absurd rfl hne
      | cons d ds =>
        obtain rfl := Symbol.char.inj (List.cons.inj heq).1
        exact hdigits d List.mem_cons_self
    exact exponentSign_of_ne (fun t heq => by cases hfirst _ t heq)
      fun t heq => by cases hfirst _ t heq
  · rfl
  · rfl

/-- Without its letter there is no exponent. -/
theorem exponentPart_of_ne {atEnd : Fault} (h : ∀ t, r ≠ .char 'e' :: t)
    (h' : ∀ t, r ≠ .char 'E' :: t) : (exponentPart atEnd).Reads r none r := by
  refine ⟨Nat.le_refl _, ?_⟩
  unfold exponentPart
  dsimp only
  split
  · next t => exact absurd rfl (h t)
  · next t => exact absurd rfl (h' t)
  · rfl

/-- An exponent is read, if there is one. -/
theorem exponentPart_of_isExponent {exponent : List Char} (atEnd : Fault)
    (hexponent : IsExponent exponent) (hr : Delimited r) :
    ∃ e, (exponentPart atEnd).Reads (symbols exponent ++ r) e r := by
  cases hexponent with
  | none =>
    exact ⟨none, exponentPart_of_ne (fun t heq => (hr 'e' t heq).2 (by simp))
      fun t heq => (hr 'E' t heq).2 (by simp)⟩
  | @some e sign ds hletter hsign hdigits =>
    have hread := someDigits_of_isDigits (r := r) atEnd hdigits fun c t h => (hr c t h).1
    rw [← exponentSign_of_mem hsign hdigits] at hread
    obtain ⟨_, hread⟩ := hread
    refine ⟨some ((exponentSign (symbols sign ++ (symbols ds ++ r))).value, digitValues ds),
      Reader.reads_iff.mpr ?_⟩
    have htext : symbols (e :: sign ++ ds) ++ r =
        .char e :: (symbols sign ++ (symbols ds ++ r)) := by
      simp
    simp only [List.mem_cons, List.not_mem_nil, or_false] at hletter
    rcases hletter with rfl | rfl
    · rw [htext, exponentPart]
      dsimp only
      rw [hread]
      rfl
    · rw [htext, exponentPart]
      dsimp only
      rw [hread]
      rfl

/-- **A number is read** after its sign, up to its end. -/
theorem readUnsigned_of_isUnsigned (atEnd : Fault) (negative : Bool) (h : IsUnsigned text)
    (hr : Delimited r) : ∃ l, (readUnsigned atEnd negative).Reads (symbols text ++ r) l r := by
  obtain @⟨whole, fraction, exponent, hwhole, hfraction, hexponent⟩ := h
  obtain ⟨f, hf⟩ := fractionPart_of_isFraction atEnd hfraction hexponent hr
  obtain ⟨e, he⟩ := exponentPart_of_isExponent atEnd hexponent hr
  have hw := wholePart_of_isWhole atEnd hwhole
    fun c t h => isDigit_of_fraction hfraction hexponent hr h
  refine ⟨⟨negative, digitValues whole, f, e⟩, Reader.reads_iff.mpr ?_⟩
  rw [symbols_append, symbols_append, List.append_assoc, List.append_assoc, readUnsigned]
  exact hw.bind fun _ => hf.bind fun _ => he.bind fun _ => rfl

end NumberLiteral

/-- **A number is skipped** after its sign. -/
theorem skipNumber_of_isUnsigned (h : IsUnsigned text) (hr : Delimited r) :
    skipNumber.Reads (symbols text ++ r) () r := by
  obtain ⟨l, hl⟩ := NumberLiteral.readUnsigned_of_isUnsigned .invalidNumber false h hr
  exact Reader.reads_map_iff.mpr ⟨l, hl, rfl⟩

/-! ### Scalars -/

/-- A text begins with a digit if it is that of a number without a sign. -/
theorem exists_digit_of_isUnsigned (h : IsUnsigned text) :
    ∃ c rest, text = c :: rest ∧ c.isDigit = true := by
  obtain @⟨whole, fraction, exponent, ⟨⟨hne, hdigits⟩, -⟩, -, -⟩ := h
  cases whole with
  | nil => exact absurd rfl hne
  | cons c whole => exact ⟨c, whole ++ (fraction ++ exponent), rfl, hdigits c List.mem_cons_self⟩

/-- Neither spaces nor brackets are digits. -/
theorem not_isSpace_of_isDigit {c : Char} (h : c.isDigit = true) :
    (Symbol.char c).isSpace = false ∧ Bracket.opened? (.char c) = none := by
  constructor
  · unfold Symbol.isSpace
    split <;> first
      | rfl
      | next heq =>
        rw [Symbol.char.inj heq] at h
        cases h
  · unfold Bracket.opened?
    split <;> first
      | rfl
      | next heq =>
        rw [Symbol.char.inj heq] at h
        cases h

/-- What is to be shown of a value: from before it, and before spaces, the skipping gets to its end,
and on from there. -/
def SkippableText (value : List Char) : Prop :=
  ∀ ⦃ws : List Char⦄ ⦃r t : Input⦄ ⦃stack : List Bracket⦄, IsSpaces ws → Delimited r →
    SkipsAfter stack r t → Skips stack (symbols ws ++ (symbols value ++ r)) t

/-- A value that opens no bracket is skipped as a scalar. -/
theorem skippableText_of_scalar {c : Char} {rest : List Char}
    (hspace : (Symbol.char c).isSpace = false) (hopened : Bracket.opened? (.char c) = none)
    (hscalar : ∀ r, Delimited r → skipScalar.Reads (symbols (c :: rest) ++ r) () r) :
    SkippableText (c :: rest) := fun _ _ _ _ hws hr hafter =>
  .scalar (begins_spaces hws hspace) hopened (hscalar _ hr) hafter

theorem skippableText_of_isUnsigned (h : IsUnsigned text) : SkippableText text := by
  obtain ⟨c, rest, rfl, hc⟩ := exists_digit_of_isUnsigned h
  obtain ⟨hspace, hopened⟩ := not_isSpace_of_isDigit hc
  refine skippableText_of_scalar hspace hopened fun r hr => ?_
  have hnumber := skipNumber_of_isUnsigned h hr
  rw [symbols_cons, List.cons_append] at hnumber ⊢
  rw [Reader.reads_iff, skipScalar, if_pos hc]
  exact Reader.reads_iff.mp hnumber

theorem skippableText_of_negative (h : IsUnsigned text) : SkippableText ('-' :: text) := by
  refine skippableText_of_scalar rfl rfl fun r hr => ?_
  have hnumber := skipNumber_of_isUnsigned h hr
  rw [symbols_cons, List.cons_append, Reader.reads_iff, skipScalar, if_neg (by decide)]
  exact hnumber.keep fun _ => rfl

theorem skippableText_of_isStringBody {body : List Char} (h : IsStringBody body) :
    SkippableText ('"' :: body ++ ['"']) := by
  show SkippableText ('"' :: (body ++ ['"']))
  refine skippableText_of_scalar rfl rfl fun r _ => ?_
  have hbody := skipString_of_isStringBody h r
  rw [symbols_cons, symbols_append, List.cons_append, List.append_assoc, Reader.reads_iff,
    skipScalar, if_neg (by decide)]
  exact hbody.keep fun _ => rfl

/-! ### Brackets -/

/-- How brackets begin and end. -/
theorem Bracketed.exists_inside {α : Type} {opening closing : Char} {part : α → List Char → Prop}
    {as : List α} (h : Bracketed opening closing part as text) :
    ∃ inside, text = opening :: (inside ++ [closing]) ∧
      ((as = [] ∧ IsSpaces inside) ∨ Joined part as inside) := by
  cases h with
  | empty hspaces => exact ⟨_, rfl, .inl ⟨rfl, hspaces⟩⟩
  | parts hjoined => exact ⟨_, rfl, .inr hjoined⟩

/-- A value begins with a character that is no space and does not close an array. -/
theorem exists_first_of_isValue (h : IsValue text) :
    ∃ c rest, text = c :: rest ∧ (Symbol.char c).isSpace = false ∧ c ≠ ']' := by
  cases h with
  | null => exact ⟨_, _, rfl, rfl, by decide⟩
  | true => exact ⟨_, _, rfl, rfl, by decide⟩
  | false => exact ⟨_, _, rfl, rfl, by decide⟩
  | number hunsigned =>
    obtain ⟨c, rest, rfl, hc⟩ := exists_digit_of_isUnsigned hunsigned
    refine ⟨c, rest, rfl, (not_isSpace_of_isDigit hc).1, ?_⟩
    rintro rfl
    cases hc
  | negative => exact ⟨_, _, rfl, rfl, by decide⟩
  | string => exact ⟨_, _, rfl, rfl, by decide⟩
  | array hlayout =>
    obtain ⟨inside, rfl, -⟩ := Bracketed.exists_inside hlayout
    exact ⟨_, _, rfl, rfl, by decide⟩
  | object hlayout =>
    obtain ⟨inside, rfl, -⟩ := Bracketed.exists_inside hlayout
    exact ⟨_, _, rfl, rfl, by decide⟩

/-- An element begins with the first character of its value. -/
theorem begins_of_element {value : List Char} (hpart : IsElement value text) (h : IsValue value) :
    ∃ c u, Begins (symbols text ++ r) (.char c) u ∧ c ≠ ']' := by
  obtain @⟨before, after, hbefore, -⟩ := hpart
  obtain ⟨c, rest, rfl, hspace, hc⟩ := exists_first_of_isValue h
  have hbegins := begins_spaces (r := symbols rest ++ (symbols after ++ r)) hbefore hspace
  refine ⟨c, symbols rest ++ (symbols after ++ r), ?_, hc⟩
  simpa only [symbols_append, symbols_cons, List.append_assoc, List.cons_append] using hbegins

/-- Elements in a row begin with the first one. -/
theorem begins_of_joined_elements {items : List (List Char)} (hlayout : Joined IsElement items text)
    (hitems : ∀ value ∈ items, IsValue value) :
    ∃ c u, Begins (symbols text ++ r) (.char c) u ∧ c ≠ ']' := by
  cases hlayout with
  | one hpart => exact begins_of_element hpart (hitems _ List.mem_cons_self)
  | more hpart =>
    rw [symbols_append, List.append_assoc]
    exact begins_of_element hpart (hitems _ List.mem_cons_self)

/-- A member begins with the quote of its key. -/
theorem begins_of_member {m : List Char × List Char} (hpart : IsMember m text) :
    ∃ u, Begins (symbols text ++ r) (.char '"') u := by
  obtain ⟨hbeforeKey, -, -, -⟩ := hpart
  rw [symbols_append, symbols_cons, List.append_assoc, List.cons_append]
  exact ⟨_, begins_spaces hbeforeKey rfl⟩

/-- Members in a row begin with the first one. -/
theorem begins_of_joined_members {members : List (List Char × List Char)}
    (hlayout : Joined IsMember members text) :
    ∃ u, Begins (symbols text ++ r) (.char '"') u := by
  cases hlayout with
  | one hpart => exact begins_of_member hpart
  | more hpart =>
    rw [symbols_append, List.append_assoc]
    exact begins_of_member hpart

/-- A key and its colon are skipped. -/
theorem skipKey_of_isStringBody {key before behind : List Char} (hkey : IsStringBody key)
    (hbefore : IsSpaces before) (hbehind : IsSpaces behind) (r : Input) :
    skipKey.Reads (symbols before ++
      .char '"' :: (symbols key ++ .char '"' :: (symbols behind ++ .char ':' :: r))) () r := by
  have hquote : (expectSymbol '"' .endInObject .keyNotString).Reads _ () _ :=
    expectSymbol_reads_iff.mpr (begins_spaces
      (r := symbols key ++ .char '"' :: (symbols behind ++ .char ':' :: r)) hbefore rfl)
  have hkey := skipString_of_isStringBody hkey (symbols behind ++ .char ':' :: r)
  have hcolon := colon_reads_iff.mpr (begins_spaces (r := r) (x := .char ':') hbehind rfl)
  rw [Reader.reads_iff, skipKey]
  exact hquote.bind fun _ => hkey.bind fun _ => hcolon.bind fun _ => rfl

section Inside

variable {stack : List Bracket}

/-- Inside an array the elements are skipped one by one, up to the end. -/
theorem skips_of_joined_elements {items : List (List Char)} (hlayout : Joined IsElement items text)
    (hitems : ∀ value ∈ items, SkippableText value) (hafter : SkipsAfter stack r t) :
    Skips (.array :: stack) (symbols text ++ .char ']' :: r) t := by
  induction hlayout with
  | one hpart =>
    have hvalue := List.forall_mem_singleton.mp hitems
    obtain @⟨before, behind, hbefore, hbehind⟩ := hpart
    have hclose : SkipsAfter (.array :: stack) (symbols behind ++ .char ']' :: r) t :=
      .close (begins_spaces hbehind rfl) hafter
    have hskips := hvalue hbefore (delimited_spaces hbehind (by simp)) hclose
    simpa only [symbols_append, List.append_assoc] using hskips
  | @more _ _ _ rest hpart _ ih =>
    obtain ⟨hvalue, hitems⟩ := List.forall_mem_cons.mp hitems
    obtain @⟨before, behind, hbefore, hbehind⟩ := hpart
    have hcomma : SkipsAfter (.array :: stack)
        (symbols behind ++ .char ',' :: (symbols rest ++ .char ']' :: r)) t :=
      .comma (begins_spaces hbehind rfl) ⟨Nat.le_refl _, rfl⟩ (ih hitems)
    have hskips := hvalue hbefore (delimited_spaces hbehind (by simp)) hcomma
    simpa only [symbols_append, symbols_cons, List.append_assoc, List.cons_append] using hskips

/-- Inside an object the members are, each with its key. -/
theorem skips_of_joined_members {members : List (List Char × List Char)}
    (hlayout : Joined IsMember members text) (hkeys : ∀ m ∈ members, IsStringBody m.1)
    (hvalues : ∀ m ∈ members, SkippableText m.2) (hafter : SkipsAfter stack r t) :
    ∃ s, skipKey.Reads (symbols text ++ .char '\x7d' :: r) () s ∧
      Skips (.object :: stack) s t := by
  induction hlayout with
  | one hpart =>
    have hkey := List.forall_mem_singleton.mp hkeys
    have hvalue := List.forall_mem_singleton.mp hvalues
    obtain @⟨key, value, _, _, _, behind, hbeforeKey, hbehindKey, hbefore, hbehind⟩ := hpart
    have hclose : SkipsAfter (.object :: stack) (symbols behind ++ .char '\x7d' :: r) t :=
      .close (begins_spaces hbehind rfl) hafter
    have hskips := hvalue hbefore (delimited_spaces hbehind (by simp)) hclose
    have hread := skipKey_of_isStringBody hkey hbeforeKey hbehindKey
    refine ⟨_, ?_, hskips⟩
    simpa only [symbols_append, symbols_cons, List.append_assoc, List.cons_append] using hread _
  | @more _ _ _ rest hpart _ ih =>
    obtain ⟨hkey, hkeys'⟩ := List.forall_mem_cons.mp hkeys
    obtain ⟨hvalue, hvalues'⟩ := List.forall_mem_cons.mp hvalues
    obtain @⟨key, value, _, _, _, behind, hbeforeKey, hbehindKey, hbefore, hbehind⟩ := hpart
    obtain ⟨s, hnextKey, hnext⟩ := ih hkeys' hvalues'
    have hcomma : SkipsAfter (.object :: stack)
        (symbols behind ++ .char ',' :: (symbols rest ++ .char '\x7d' :: r)) t :=
      .comma (begins_spaces hbehind rfl) hnextKey hnext
    have hskips := hvalue hbefore (delimited_spaces hbehind (by simp)) hcomma
    have hread := skipKey_of_isStringBody hkey hbeforeKey hbehindKey
    refine ⟨_, ?_, hskips⟩
    simpa only [symbols_append, symbols_cons, List.append_assoc, List.cons_append] using hread _

end Inside

/-! ### Values -/

/-- An array is skipped if its elements are. -/
theorem skippableText_of_isArray {items : List (List Char)} (hlayout : IsArray items text)
    (hvalues : ∀ value ∈ items, IsValue value) (hitems : ∀ value ∈ items, SkippableText value) :
    SkippableText text := by
  obtain ⟨inside, rfl, ⟨rfl, hspaces⟩ | hjoined⟩ := Bracketed.exists_inside hlayout
  · intro ws r t stack hws _ hafter
    have hopen := begins_spaces (r := symbols inside ++ .char ']' :: r) (x := .char '[') hws rfl
    have hclose : Begins _ (.char Bracket.array.closing) r := begins_spaces hspaces rfl
    have hskips := Skips.empty hopen rfl hclose hafter
    simpa only [symbols_append, symbols_cons, symbols_nil, List.append_assoc, List.cons_append,
      List.nil_append] using hskips
  · intro ws r t stack hws _ hafter
    have hopen := begins_spaces (r := symbols inside ++ .char ']' :: r) (x := .char '[') hws rfl
    obtain ⟨c, u, hinside, hc⟩ := begins_of_joined_elements (r := .char ']' :: r) hjoined hvalues
    have hskips := Skips.open hopen rfl hinside (fun heq => hc (Symbol.char.inj heq))
      ⟨Nat.le_refl _, rfl⟩ (skips_of_joined_elements hjoined hitems hafter)
    simpa only [symbols_append, symbols_cons, symbols_nil, List.append_assoc, List.cons_append,
      List.nil_append] using hskips

/-- An object is skipped if the values of its members are. -/
theorem skippableText_of_isObject {members : List (List Char × List Char)}
    (hlayout : IsObject members text) (hkeys : ∀ m ∈ members, IsStringBody m.1)
    (hvalues : ∀ m ∈ members, SkippableText m.2) : SkippableText text := by
  obtain ⟨inside, rfl, ⟨rfl, hspaces⟩ | hjoined⟩ := Bracketed.exists_inside hlayout
  · intro ws r t stack hws _ hafter
    have hopen :=
      begins_spaces (r := symbols inside ++ .char '\x7d' :: r) (x := .char '\x7b') hws rfl
    have hclose : Begins _ (.char Bracket.object.closing) r := begins_spaces hspaces rfl
    have hskips := Skips.empty hopen rfl hclose hafter
    simpa only [symbols_append, symbols_cons, symbols_nil, List.append_assoc, List.cons_append,
      List.nil_append] using hskips
  · intro ws r t stack hws _ hafter
    have hopen :=
      begins_spaces (r := symbols inside ++ .char '\x7d' :: r) (x := .char '\x7b') hws rfl
    obtain ⟨u, hquote⟩ := begins_of_joined_members (r := .char '\x7d' :: r) hjoined
    obtain ⟨s, hkey, hvalue⟩ := skips_of_joined_members hjoined hkeys hvalues hafter
    have hskips := Skips.open hopen rfl hquote (by decide) hkey hvalue
    simpa only [symbols_append, symbols_cons, symbols_nil, List.append_assoc, List.cons_append,
      List.nil_append] using hskips

/-- **A well-formed value is skipped**, inside any brackets. -/
theorem skippableText_of_isValue (h : IsValue text) : SkippableText text := by
  induction h with
  | null => exact skippableText_of_scalar rfl rfl fun r _ => Reader.reads_iff.mpr rfl
  | true => exact skippableText_of_scalar rfl rfl fun r _ => Reader.reads_iff.mpr rfl
  | false => exact skippableText_of_scalar rfl rfl fun r _ => Reader.reads_iff.mpr rfl
  | number h => exact skippableText_of_isUnsigned h
  | negative h => exact skippableText_of_negative h
  | string h => exact skippableText_of_isStringBody h
  | array hlayout hvalues ih => exact skippableText_of_isArray hlayout hvalues ih
  | object hlayout hkeys _ ih => exact skippableText_of_isObject hlayout hkeys ih

/-- **A well-formed value can be skipped**, up to its end. -/
theorem skip_of_isValue (h : IsValue text) (hws : IsSpaces ws) (hr : Delimited r) :
    skip.Reads (symbols ws ++ (symbols text ++ r)) () r :=
  skippableText_of_isValue h hws hr (skipsAfter_nil r)

end ConfigSchema.Reading
