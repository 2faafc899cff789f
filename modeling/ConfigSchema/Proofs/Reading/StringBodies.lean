import ConfigSchema.Proofs.Reading.SkippedText
import ConfigSchema.Proofs.Reading.Strings

/-!
# Well-formed strings are read as what they stand for

Of a well-formed string the reader takes all, up to the closing quote, and what it has read is the
text that the string stands for (`ConfigSchema.Reading.string_reads_iff_spells`). A string whose
escapes are surrogates without a partner stands for nothing and is turned down.

That a string is read if it stands for a text goes along the text. The converse goes along the
string, and there the step is not always one escape: a surrogate that leads is read together with
the escape behind it, which is then known to be the surrogate that follows.
-/

namespace ConfigSchema.Reading

open Json.Grammar

variable {s r rest : Input} {body text digits digits' : List Char} {n n' : Nat}

/-! ### Surrogates -/

theorem isLeading_iff : isLeading n = true ↔ 0xD800 ≤ n ∧ n < 0xDC00 := by
  rw [isLeading, Bool.and_eq_true, decide_eq_true_eq, decide_eq_true_eq]

theorem isTrailing_iff : isTrailing n = true ↔ 0xDC00 ≤ n ∧ n < 0xE000 := by
  rw [isTrailing, Bool.and_eq_true, decide_eq_true_eq, decide_eq_true_eq]

/-! ### Escapes -/

/-- Four digits are read as a character if they are no surrogate. -/
theorem escape_answers_unit (hunit : IsUnit digits n) (hn : n < 0xD800 ∨ 0xE000 ≤ n) :
    escape.Answers ('u' :: digits) (.ok (Char.ofNat n)) := by
  intro rest
  have hdigits := fourHexDigits_of_isUnit hunit rest
  rw [Reader.outcome, symbols_cons, List.cons_append, escape]
  refine hdigits.bind fun _ => ?_
  dsimp only
  rw [if_neg (by rw [isTrailing_iff]; omega), if_neg (by rw [isLeading_iff]; omega)]
  rfl

/-- Four digits after a leading surrogate are read as the trailing one. -/
theorem trailingSurrogate_of_isUnit (hunit : IsUnit digits n) (hn : 0xDC00 ≤ n ∧ n < 0xE000) :
    trailingSurrogate.Reads (.char '\\' :: .char 'u' :: (symbols digits ++ s)) n s := by
  have hdigits := fourHexDigits_of_isUnit hunit s
  rw [Reader.reads_iff, trailingSurrogate]
  refine hdigits.bind fun _ => ?_
  dsimp only
  rw [if_pos (isTrailing_iff.mpr hn)]
  rfl

/-- A pair of surrogates is read as one character. -/
theorem escape_answers_pair (hunit : IsUnit digits n) (hunit' : IsUnit digits' n')
    (hn : 0xD800 ≤ n ∧ n < 0xDC00) (hn' : 0xDC00 ≤ n' ∧ n' < 0xE000) :
    escape.Answers ('u' :: digits ++ '\\' :: 'u' :: digits') (.ok (ofSurrogates n n')) := by
  intro rest
  have htrailing := trailingSurrogate_of_isUnit (s := rest) hunit' hn'
  have hdigits := fourHexDigits_of_isUnit hunit
    (.char '\\' :: .char 'u' :: (symbols digits' ++ rest))
  rw [Reader.outcome, List.cons_append, symbols_cons, symbols_append, symbols_cons, symbols_cons,
    List.cons_append, List.append_assoc, List.cons_append, List.cons_append, escape]
  refine hdigits.bind fun _ => ?_
  dsimp only
  rw [if_neg (by rw [isTrailing_iff]; omega), if_pos (isLeading_iff.mpr hn)]
  refine htrailing.bind fun _ => ?_
  dsimp only
  -- the number of the character is not to be computed
  generalize ofSurrogates n n' = c
  rfl

/-- **An escape of four digits that is read** is a character by itself, or the digits of the
trailing surrogate follow. -/
theorem escape_reads_inversion {c : Char} (hunit : IsUnit digits n)
    (h : escape.Reads (.char 'u' :: (symbols digits ++ s)) c r) :
    ((n < 0xD800 ∨ 0xE000 ≤ n) ∧ r = s) ∨
      ((0xD800 ≤ n ∧ n < 0xDC00) ∧ ∃ s' m, s = .char '\\' :: .char 'u' :: s' ∧
        fourHexDigits.Reads s' m r ∧ 0xDC00 ≤ m ∧ m < 0xE000) := by
  have hdigits := fourHexDigits_of_isUnit hunit s
  rw [Reader.reads_iff, escape] at h
  obtain ⟨m, t, hdigits', _, h⟩ := map_pair_bind_eq_ok_iff.mp h
  obtain ⟨rfl, rfl⟩ := hdigits.unique hdigits'
  dsimp only at h
  split at h
  · cases h
  next hntrailing =>
  rw [isTrailing_iff] at hntrailing
  split at h
  · next hleading =>
    obtain ⟨m, t', htrailing, _, h⟩ := map_pair_bind_eq_ok_iff.mp h
    obtain ⟨-, rfl⟩ := map_pair_pure_eq_ok_iff.mp h
    obtain ⟨s', rfl, hm, htrailing⟩ := trailingSurrogate_reads htrailing
    exact Or.inr ⟨isLeading_iff.mp hleading, s', m, rfl, hm, isTrailing_iff.mp htrailing⟩
  · next hnleading =>
    rw [isLeading_iff] at hnleading
    obtain ⟨-, rfl⟩ := map_pair_pure_eq_ok_iff.mp h
    exact Or.inl ⟨by omega, rfl⟩

/-! ### Strings -/

/-- **What stands for a text is read**, symbol by symbol. -/
theorem stringSymbols_answers_of_spells (h : Spells body text) :
    Reader.Answers stringSymbols (body ++ ['"']) (.ok (symbols text)) := by
  induction h with
  | nil => exact stringSymbols_nil_answers
  | plain hplain _ ih =>
    exact stringSymbols_answers_char hplain.ne_quote hplain.ne_backslash hplain.not_control ih
  | @letter entry body text hmem _ ih =>
    have hescape : escape.Answers [entry.1] (.ok entry.2) := by
      obtain ⟨hu, hshort⟩ := shortEscape?_of_mem_letters hmem
      intro rest
      rw [Reader.outcome, symbols_cons, List.cons_append, escape]
      · rw [hshort]
        rfl
      · exact hu
    have hread := stringSymbols_answers_escape hescape ih
    exact hread
  | unit hunit hn _ ih =>
    have hread := stringSymbols_answers_escape (escape_answers_unit hunit hn) ih
    rwa [List.cons_append, ← List.append_assoc] at hread
  | pair hunit hunit' hn hn' _ ih =>
    have hread := stringSymbols_answers_escape (escape_answers_pair hunit hunit' hn hn') ih
    rw [ofSurrogates] at hread
    simpa only [List.append_assoc, List.cons_append, symbols_cons] using hread

/-- Behind an escape the string goes on. -/
theorem stringSymbols_reads_escape {xs : List Symbol}
    (h : Reader.Reads stringSymbols (.char '\\' :: s) xs r) :
    ∃ c t more, escape.Reads s c t ∧ Reader.Reads stringSymbols t more r := by
  rw [Reader.reads_iff, stringSymbols, if_neg (by decide), if_pos rfl] at h
  obtain ⟨c, t, hescape, _, h⟩ := map_pair_bind_eq_ok_iff.mp h
  obtain ⟨more, r', hmore, _, h⟩ := map_pair_bind_eq_ok_iff.mp h
  obtain ⟨-, rfl⟩ := map_pair_pure_eq_ok_iff.mp h
  exact ⟨c, t, more, hescape, hmore⟩

/-- Behind a character that stands for itself the string goes on. -/
theorem stringSymbols_reads_plain {c : Char} {xs : List Symbol} (hc : IsPlain c)
    (h : Reader.Reads stringSymbols (.char c :: s) xs r) :
    ∃ more, Reader.Reads stringSymbols s more r := by
  obtain ⟨hquote, hbackslash, hcontrol⟩ := symbol_ne_of_isPlain hc
  rw [Reader.reads_iff, stringSymbols, if_neg hquote, if_neg hbackslash, if_neg hcontrol] at h
  obtain ⟨more, r', hmore, _, h⟩ := map_pair_bind_eq_ok_iff.mp h
  obtain ⟨-, rfl⟩ := map_pair_pure_eq_ok_iff.mp h
  exact ⟨more, hmore⟩

/-- If an escape of four digits is what a string goes on with, then its digits are there. -/
theorem exists_unit_of_symbols_eq (hbody : IsStringBody body)
    (h : symbols body ++ .char '"' :: rest = .char '\\' :: .char 'u' :: s) :
    ∃ digits n body', IsUnit digits n ∧ IsStringBody body' ∧
      body = '\\' :: 'u' :: digits ++ body' ∧
      s = symbols digits ++ (symbols body' ++ .char '"' :: rest) := by
  cases hbody with
  | nil => cases (List.cons.inj h).1
  | plain hplain => exact absurd (Symbol.char.inj (List.cons.inj h).1) hplain.ne_backslash
  | letter hmem =>
    have hu := Symbol.char.inj (List.cons.inj (List.cons.inj h).2).1
    exact absurd hu (shortEscape?_of_mem_letters hmem).1
  | @unit digits body' n hunit hbody' =>
    refine ⟨digits, n, body', hunit, hbody', rfl, ?_⟩
    rw [← (List.cons.inj (List.cons.inj h).2).2]
    exact (congrArg (· ++ _) (symbols_append digits body')).trans (List.append_assoc ..)

/-- **A well-formed string that is read** stands for a text. -/
theorem exists_spells_of_stringSymbols {xs : List Symbol} (hbody : IsStringBody body)
    (h : Reader.Reads stringSymbols (symbols body ++ .char '"' :: rest) xs r) :
    ∃ text, Spells body text := by
  -- a pair of surrogates is two steps along the string
  induction hk : body.length using Nat.strongRecOn generalizing body xs with
  | ind k ih =>
  subst hk
  cases hbody with
  | nil => exact ⟨[], .nil⟩
  | @plain c body hplain hbody =>
    obtain ⟨more, hmore⟩ := stringSymbols_reads_plain hplain h
    obtain ⟨text, htext⟩ := ih body.length (by simp) hbody hmore rfl
    exact ⟨c :: text, .plain hplain htext⟩
  | @letter entry body hmem hbody =>
    obtain ⟨c, t, more, hescape, hmore⟩ := stringSymbols_reads_escape h
    obtain ⟨hu, hshort⟩ := shortEscape?_of_mem_letters hmem
    have ht : escape.Reads (.char entry.1 :: (symbols body ++ .char '"' :: rest)) entry.2
        (symbols body ++ .char '"' :: rest) := by
      rw [Reader.reads_iff, escape]
      · rw [hshort]
        rfl
      · exact hu
    obtain ⟨-, rfl⟩ := ht.unique hescape
    have hlt : body.length < ('\\' :: entry.1 :: body).length := by
      simp only [List.length_cons]
      omega
    obtain ⟨text, htext⟩ := ih body.length hlt hbody hmore rfl
    exact ⟨entry.2 :: text, .letter hmem htext⟩
  | @unit digits body n hunit hbody =>
    rw [List.cons_append, List.cons_append, symbols_cons, symbols_cons, symbols_append,
      List.cons_append, List.cons_append, List.append_assoc] at h
    obtain ⟨c, t, more, hescape, hmore⟩ := stringSymbols_reads_escape h
    rcases escape_reads_inversion hunit hescape with ⟨hn, rfl⟩ | ⟨hn, s', m, hs, hm, hmn⟩
    · have hlt : body.length < ('\\' :: 'u' :: digits ++ body).length := by
        simp only [List.length_append, List.length_cons]
        omega
      obtain ⟨text, htext⟩ := ih body.length hlt hbody hmore rfl
      exact ⟨Char.ofNat n :: text, .unit hunit hn htext⟩
    · obtain ⟨digits', n', body', hunit', hbody', rfl, rfl⟩ := exists_unit_of_symbols_eq hbody hs
      obtain ⟨rfl, rfl⟩ := (fourHexDigits_of_isUnit hunit' _).unique hm
      have hlt : body'.length <
          ('\\' :: 'u' :: digits ++ ('\\' :: 'u' :: digits' ++ body')).length := by
        simp only [List.length_append, List.length_cons]
        omega
      obtain ⟨text, htext⟩ := ih body'.length hlt hbody' hmore rfl
      exact ⟨_, .pair hunit hunit' hn hmn htext⟩

/-- What stands for a text is read as it, up to the closing quote. -/
theorem string_of_spells {name : String} (h : Spells body name.toList) :
    string.Reads (symbols body ++ .char '"' :: rest) name rest := by
  have hsymbols := Reader.outcome_eq_ok_iff.mp (stringSymbols_answers_of_spells h rest)
  rw [symbols_append, List.append_assoc] at hsymbols
  rw [Reader.reads_iff, string]
  refine hsymbols.bind fun _ => ?_
  simp only [mapM_char?_symbols, String.ofList_toList]
  rfl

/-- **A well-formed string is read** exactly as the text that it stands for, and up to its closing
quote. -/
theorem string_reads_iff_spells {name : String} (hbody : IsStringBody body) :
    string.Reads (symbols body ++ .char '"' :: rest) name r ↔
      r = rest ∧ Spells body name.toList := by
  constructor
  · intro h
    obtain ⟨xs, hsymbols⟩ : ∃ xs, Reader.Reads stringSymbols (symbols body ++ .char '"' :: rest)
        xs r := by
      rw [Reader.reads_iff, string] at h
      obtain ⟨xs, r', hread, _, h⟩ := map_pair_bind_eq_ok_iff.mp h
      split at h
      · obtain ⟨-, rfl⟩ := map_pair_pure_eq_ok_iff.mp h
        exact ⟨xs, hread⟩
      · cases h
    obtain ⟨text, htext⟩ := exists_spells_of_stringSymbols hbody hsymbols
    have hread : string.Reads (symbols body ++ .char '"' :: rest) (String.ofList text) rest :=
      string_of_spells (by rwa [String.toList_ofList])
    obtain ⟨rfl, rfl⟩ := h.unique hread
    exact ⟨rfl, by rwa [String.toList_ofList]⟩
  · rintro ⟨rfl, htext⟩
    exact string_of_spells htext

/-- A string stands for one text at most. -/
theorem name_eq_of_spells {name name' : String} (h : Spells body name.toList)
    (h' : Spells body name'.toList) : name = name' := by
  have hread : string.Reads (symbols body ++ [.char '"']) name [] := string_of_spells h
  exact (hread.unique (string_of_spells h')).1

end ConfigSchema.Reading
