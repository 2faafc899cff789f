import ConfigSchema.Json.Writer
import ConfigSchema.Proofs.Reading.Answer

/-!
# Written strings are read back

A written string escapes the quote, the backslash and the control characters, some by a letter
and the others by four digits. Every character is read back from what is written for it
(`ConfigSchema.Reading.stringSymbols_answers_escapeChar`): an escape gives the character, and a
character that stands for itself is none of those that would end the string or that may not
stand in it. So every text is read back from its written form
(`ConfigSchema.Reading.string_answers`), whatever characters it has.

A word and a string are values that are known from how they begin, so the same is said of the
lexemes that the library writes.
-/

namespace ConfigSchema.Reading

open Json

/-! ### Escapes -/

/-- A digit in base sixteen has one byte, and is read back as its value. -/
theorem hexDigit?_hexDigit : ∀ n < 16,
    (Symbol.char (hexDigit n)).hexDigit? = some n ∧ (Symbol.char (hexDigit n)).width = 1 := by
  decide

theorem fourHexDigits_answers {a b : Nat} (ha : a < 16) (hb : b < 16) :
    fourHexDigits.Answers ['0', '0', hexDigit a, hexDigit b] (.ok (a * 16 + b)) := by
  intro rest
  obtain ⟨hadigit, hawidth⟩ := hexDigit?_hexDigit a ha
  obtain ⟨hbdigit, hbwidth⟩ := hexDigit?_hexDigit b hb
  have hzero : (Symbol.char '0').hexDigit? = some 0 := by decide
  have hwidth : (Symbol.char '0').width = 1 := by decide
  simp only [Reader.outcome, fourHexDigits, symbols_cons, symbols_nil, List.cons_append,
    List.nil_append, List.take_succ_cons, List.take_zero, List.foldr_cons, List.foldr_nil,
    hwidth, hawidth, hbwidth, hadigit, hbdigit, hzero]
  rw [if_neg (by decide)]
  have hvalue : ((0 * 16 + 0) * 16 + a) * 16 + b = a * 16 + b := by omega
  exact congrArg (fun n => Except.ok (n, rest)) hvalue

/-- A control character is read back from its four digits: they are too small for a
surrogate. -/
theorem escape_answers_control {c : Char} (h : c.toNat < 0x20) :
    escape.Answers ['u', '0', '0', hexDigit (c.toNat / 16), hexDigit (c.toNat % 16)]
      (.ok c) := by
  intro rest
  have hdigits := fourHexDigits_answers (a := c.toNat / 16) (b := c.toNat % 16) (by omega)
    (by omega) rest
  rw [show c.toNat / 16 * 16 + c.toNat % 16 = c.toNat by omega] at hdigits
  have htrailing : isTrailing c.toNat = false := by
    rw [isTrailing, Bool.and_eq_false_iff]
    exact Or.inl (decide_eq_false (by omega))
  have hleading : isLeading c.toNat = false := by
    rw [isLeading, Bool.and_eq_false_iff]
    exact Or.inl (decide_eq_false (by omega))
  rw [Reader.outcome, symbols_cons, List.cons_append, escape]
  refine map_pair_bind_ok hdigits fun h => ?_
  simp only [htrailing, hleading, Bool.false_eq_true, if_false, Char.ofNat_toNat]
  rfl

/-! ### Characters -/

theorem stringSymbols_nil_answers : Reader.Answers stringSymbols ['"'] (.ok []) := by
  intro rest
  rw [Reader.outcome, symbols_cons, symbols_nil, List.cons_append, List.nil_append,
    stringSymbols, if_pos rfl]
  rfl

/-- An escape stands for its character, which is the first of the string. -/
theorem stringSymbols_answers_escape {c : Char} {written text : List Char}
    {more : List Symbol} (hescape : escape.Answers written (.ok c))
    (htext : Reader.Answers stringSymbols text (.ok more)) :
    Reader.Answers stringSymbols ('\\' :: written ++ text) (.ok (.char c :: more)) := by
  intro rest
  rw [List.cons_append, symbols_cons, List.cons_append, Reader.outcome, stringSymbols,
    if_neg (by decide), if_pos rfl]
  rw [symbols_append, List.append_assoc]
  exact map_pair_bind_ok (hescape _) fun _ => map_pair_bind_ok (htext rest) fun _ => rfl

/-- A character that does not have to be escaped stands for itself. -/
theorem stringSymbols_answers_char {c : Char} {text : List Char} {more : List Symbol}
    (hquote : c ≠ '"') (hbackslash : c ≠ '\\') (hcontrol : ¬ c.toNat < 0x20)
    (htext : Reader.Answers stringSymbols text (.ok more)) :
    Reader.Answers stringSymbols (c :: text) (.ok (.char c :: more)) := by
  intro rest
  rw [symbols_cons, List.cons_append, Reader.outcome, stringSymbols,
    if_neg (fun h => hquote (Symbol.char.inj h)),
    if_neg (fun h => hbackslash (Symbol.char.inj h)), isControl,
    if_neg (by simpa using hcontrol)]
  exact map_pair_bind_ok (htext rest) fun _ => rfl

/-- **Every character is read back** from what is written for it. -/
theorem stringSymbols_answers_escapeChar {text : List Char} {more : List Symbol}
    (htext : Reader.Answers stringSymbols text (.ok more)) (c : Char) :
    Reader.Answers stringSymbols (escapeChar c ++ text) (.ok (.char c :: more)) := by
  unfold escapeChar
  split
  case h_8 h1 h2 _ _ _ _ _ =>
    split
    · next h => exact stringSymbols_answers_escape (escape_answers_control h) htext
    · next h => exact stringSymbols_answers_char h1 h2 h htext
  -- the seven characters that are escaped by a letter
  all_goals exact stringSymbols_answers_escape (fun _ => rfl) htext

theorem stringSymbols_answers (cs : List Char) :
    Reader.Answers stringSymbols (cs.flatMap escapeChar ++ ['"']) (.ok (symbols cs)) := by
  induction cs with
  | nil => exact stringSymbols_nil_answers
  | cons c cs ih =>
    rw [List.flatMap_cons, List.append_assoc]
    exact stringSymbols_answers_escapeChar ih c

theorem mapM_char?_symbols (cs : List Char) : (symbols cs).mapM Symbol.char? = some cs := by
  induction cs with
  | nil => rfl
  | cons c cs ih => rw [symbols_cons, List.mapM_cons, ih]; rfl

/-- **Every text is read back** from its written form, after the opening quote. -/
theorem string_answers (text : String) :
    string.Answers (text.toList.flatMap escapeChar ++ ['"']) (.ok text) := by
  intro rest
  rw [Reader.outcome, string]
  refine map_pair_bind_ok (stringSymbols_answers text.toList rest) fun h => ?_
  simp only [mapM_char?_symbols, String.ofList_toList]
  rfl

/-! ### Lexemes -/

theorem lexeme_answers_string (text : String) :
    lexeme.Answers (writeString text) (.ok (.string text)) := by
  intro rest
  rw [Reader.outcome, writeString, symbols_cons, List.cons_append, lexeme,
    next?_cons (by decide)]
  exact map_pair_bind_ok ((string_answers text).map Lexeme.string rest) fun _ => rfl

theorem lexeme_answers_boolean (b : Bool) :
    lexeme.Answers (writeBoolean b) (.ok (.boolean b)) := by
  intro rest
  cases b <;> rfl

theorem lexeme_answers_array : lexeme.Answers ['['] (.ok .array) := fun _ => rfl

theorem lexeme_answers_object : lexeme.Answers ['\x7b'] (.ok .object) := fun _ => rfl

end ConfigSchema.Reading
