import ConfigSchema.Text.Position

/-!
# Texts without a position

A message is put together from fixed parts and from names that come from outside. If the words
of a position occur in none of the names, then they do not occur in the message either: they
would have to begin in one part and end in another, and no fixed part ends as they begin or
begins as they end. So nothing of the message is taken for a position
(`ConfigSchema.Text.Unplaced.withoutPosition_eq`).
-/

namespace ConfigSchema.Text

/-- The words before the line, without the spaces around them. -/
def Position.words : List Char := "at line".toList

/-- **The words of a position do not occur** in a text. -/
def Unplaced (cs : List Char) : Prop := ¬ Position.words <:+: cs

/-- Of a text that is known it can be decided. -/
instance (cs : List Char) : Decidable (Unplaced cs) :=
  inferInstanceAs (Decidable (¬ Position.words <:+: cs))

/-- What occurs in two texts in a row occurs in one of them, or it begins at the end of the
first and ends at the beginning of the second. -/
theorem infix_append_split {α : Type} {w l r : List α} (h : w <:+: l ++ r) :
    w <:+: l ∨ w <:+: r ∨
      ∃ i < w.length, 0 < i ∧ w.take i <:+ l ∧ w.drop i <+: r := by
  obtain ⟨before, after, h⟩ := h
  rw [List.append_assoc] at h
  rcases List.append_eq_append_iff.mp h with ⟨m, hl, hm⟩ | ⟨m, -, hr⟩
  · rcases List.append_eq_append_iff.mp hm with ⟨m', rfl, -⟩ | ⟨m', rfl, hr⟩
    · exact Or.inl ⟨before, m', by rw [hl, List.append_assoc]⟩
    · -- `m` stands in the first text and `m'` in the second; either may be empty
      rcases Nat.eq_zero_or_pos m.length with hm | hm
      · obtain rfl := List.length_eq_zero_iff.mp hm
        exact Or.inr (Or.inl ⟨[], after, by rw [hr]; rfl⟩)
      rcases Nat.eq_zero_or_pos m'.length with hm' | hm'
      · obtain rfl := List.length_eq_zero_iff.mp hm'
        exact Or.inl ⟨before, [], by rw [hl, List.append_nil, List.append_nil]⟩
      refine Or.inr (Or.inr ⟨m.length, by rw [List.length_append]; omega, hm, ?_, ?_⟩)
      · rw [List.take_left]
        exact ⟨before, hl.symm⟩
      · rw [List.drop_left]
        exact ⟨after, hr.symm⟩
  · exact Or.inr (Or.inl ⟨m, after, by rw [hr, List.append_assoc]⟩)

namespace Unplaced

variable {l r : List Char}

/-- Two texts in a row are unplaced if both are, and the words do not begin in the one and end
in the other. -/
theorem append (hl : Unplaced l) (hr : Unplaced r)
    (h : ∀ i < 7, 0 < i → Position.words.take i <:+ l → ¬ Position.words.drop i <+: r) :
    Unplaced (l ++ r) := by
  intro hwords
  rcases infix_append_split hwords with hw | hw | ⟨i, hi, hpos, htake, hdrop⟩
  · exact hl hw
  · exact hr hw
  · exact h i (by exact hi) hpos htake hdrop

/-- Before an unplaced text there may be one that does not end as the words begin. -/
theorem append_of_ends (hr : Unplaced r) (hl : Unplaced l)
    (hends : ∀ i < 7, 0 < i → ¬ Position.words.take i <:+ l) : Unplaced (l ++ r) :=
  append hl hr fun i hi hpos htake => absurd htake (hends i hi hpos)

/-- After an unplaced text there may be one that does not begin as the words end. -/
theorem append_of_begins (hl : Unplaced l) (hr : Unplaced r)
    (hbegins : ∀ i < 7, 0 < i → ¬ Position.words.drop i <+: r) : Unplaced (l ++ r) :=
  append hl hr fun i hi hpos _ => hbegins i hi hpos

/-- A colon is not in the words, so nothing that begins with one ends them. -/
theorem not_prefix_colon (r : List Char) :
    ∀ i < 7, 0 < i → ¬ Position.words.drop i <+: ':' :: r := by
  intro i hi _ h
  have hlength : Position.words.length = 7 := by decide +kernel
  have hcolon : ':' ∉ Position.words := by decide +kernel
  rcases List.prefix_cons_iff.mp h with hnil | ⟨cs, hcs, -⟩
  · have hzero := List.length_eq_zero_iff.mpr hnil
    rw [List.length_drop, hlength] at hzero
    omega
  · exact hcolon (List.mem_of_mem_drop (hcs ▸ List.mem_cons_self))

/-- **An unplaced text has no position at its end.** -/
theorem withoutPosition_eq {cs : List Char} (h : Unplaced cs) : withoutPosition cs = cs := by
  have hwords : Position.words <:+: Position.lineWords := ⟨[' '], [' '], by decide +kernel⟩
  exact withoutPosition_of_not_infix fun hline => h (hwords.trans hline)

end Unplaced

end ConfigSchema.Text
