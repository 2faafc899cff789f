import ConfigSchema.Proofs.Json.Grammar
import ConfigSchema.Proofs.Json.Written

/-!
# What is written is well formed

The texts that the library writes are documents by the grammar
(`ConfigSchema.Json.Written.isValue_text`): arrays and objects are laid out without spaces, and a
string spells the text that it was written for (`ConfigSchema.Json.spells_escaped`).
-/

namespace ConfigSchema.Json

open Grammar

variable {body text : List Char}

/-! ### Strings -/

/-- A digit in base sixteen is one by the grammar, with the same value. -/
theorem isHexDigit_hexDigit : ∀ n < 16, IsHexDigit (hexDigit n) ∧ hexValue (hexDigit n) = n := by
  simp only [IsHexDigit]
  decide

/-- An escape of one letter spells what the letter stands for. -/
theorem spells_letter {letter c : Char} (h : (letter, c) ∈ letters) (hrest : Spells body text) :
    Spells ('\\' :: letter :: body) (c :: text) :=
  .letter h hrest

/-- A control character is spelled by its number. -/
theorem spells_control {c : Char} (hc : c.toNat < 0x20) (hrest : Spells body text) :
    Spells (['\\', 'u', '0', '0', hexDigit (c.toNat / 16), hexDigit (c.toNat % 16)] ++ body)
      (c :: text) := by
  obtain ⟨hzero, hzero'⟩ := isHexDigit_hexDigit 0 (by decide)
  obtain ⟨hfirst, hfirst'⟩ := isHexDigit_hexDigit (c.toNat / 16) (by omega)
  obtain ⟨hsecond, hsecond'⟩ := isHexDigit_hexDigit (c.toNat % 16) (by omega)
  have hunit := IsUnit.mk hzero hzero hfirst hsecond
  rw [hzero', hfirst', hsecond',
    show ((0 * 16 + 0) * 16 + c.toNat / 16) * 16 + c.toNat % 16 = c.toNat by omega] at hunit
  have hspells := Spells.unit hunit (Or.inl (by omega)) hrest
  rwa [Char.ofNat_toNat] at hspells

/-- **What is written for a character** spells it. -/
theorem spells_escapeChar (c : Char) (hrest : Spells body text) :
    Spells (escapeChar c ++ body) (c :: text) := by
  unfold escapeChar
  split
  case h_8 hquote hbackslash _ _ _ _ _ =>
    split
    · next hcontrol => exact spells_control hcontrol hrest
    · next hcontrol => exact .plain ⟨hcontrol, hquote, hbackslash⟩ hrest
  -- the seven characters that are escaped by a letter
  all_goals exact spells_letter (by decide) hrest

/-- **What is written for a text** spells it. -/
theorem spells_escaped (text : List Char) : Spells (text.flatMap escapeChar) text := by
  induction text with
  | nil => exact .nil
  | cons c text ih => exact spells_escapeChar c ih

/-! ### Arrays and objects -/

section Layout

variable {α β : Type} {part : β → List Char → Prop} {as : List α} {content : α → β}
  {write : α → List Char}

theorem joined_separated (hne : as ≠ []) (h : ∀ a ∈ as, part (content a) (write a)) :
    Joined part (as.map content) (separated (as.map write)) := by
  induction as with
  | nil => exact absurd rfl hne
  | cons a as ih =>
    obtain ⟨ha, has⟩ := List.forall_mem_cons.mp h
    cases as with
    | nil => exact .one ha
    | cons b as => exact .more ha (ih (by simp) has)

/-- Parts that are written between brackets are laid out there. -/
theorem bracketed_separated {opening closing : Char} (h : ∀ a ∈ as, part (content a) (write a)) :
    Bracketed opening closing part (as.map content)
      (opening :: (separated (as.map write) ++ [closing])) := by
  by_cases hne : as = []
  · subst hne
    exact .empty isSpaces_nil
  · exact .parts (joined_separated hne h)

end Layout

/-- Without spaces an element is its value. -/
theorem isElement_self (value : List Char) : IsElement value value := by
  have h : IsElement value ([] ++ value ++ []) := .mk isSpaces_nil isSpaces_nil
  rwa [List.nil_append, List.append_nil] at h

theorem isMember_writeMember (m : String × List Char) :
    IsMember (m.1.toList.flatMap escapeChar, m.2) (writeMember m.1 m.2) := by
  have h : IsMember (m.1.toList.flatMap escapeChar, m.2)
      ([] ++ '"' :: (m.1.toList.flatMap escapeChar ++ '"' :: ([] ++ ':' :: ([] ++ m.2 ++ [])))) :=
    .mk isSpaces_nil isSpaces_nil isSpaces_nil isSpaces_nil
  simpa [writeMember, writeString] using h

/-- **A written array** is one by the grammar. -/
theorem arrayOf_writeArray {items : List (List Char)} (h : ∀ value ∈ items, IsValue value) :
    ArrayOf items (writeArray items) := by
  have hlayout : IsArray (items.map id) (writeArray (items.map id)) :=
    bracketed_separated fun value _ => isElement_self value
  rw [List.map_id] at hlayout
  exact ⟨hlayout, h⟩

/-- **A written object** is one by the grammar. -/
theorem objectOf_writeObject {members : List (String × List Char)}
    (h : ∀ m ∈ members, IsValue m.2) :
    ObjectOf (members.map fun m => (m.1.toList.flatMap escapeChar, m.2))
      (writeObject (members.map fun m => writeMember m.1 m.2)) where
  layout := bracketed_separated fun m _ => isMember_writeMember m
  keys := List.forall_mem_map.mpr fun _ _ => (spells_escaped _).isStringBody
  values := List.forall_mem_map.mpr h

/-! ### Documents -/

namespace Written

variable {items : List Written} {members : List (String × Written)}

/-- A document that is an array is one by the grammar if its elements are well formed. -/
theorem arrayOf_text_of (h : ∀ w ∈ items, IsValue w.text) :
    ArrayOf (items.map Written.text) (array items).text := by
  rw [text_array]
  exact arrayOf_writeArray (List.forall_mem_map.mpr h)

/-- A document that is an object is one by the grammar if its values are well formed. -/
theorem objectOf_text_of (h : ∀ m ∈ members, IsValue m.2.text) :
    ObjectOf (members.map fun m => (m.1.toList.flatMap escapeChar, m.2.text))
      (object members).text := by
  have hvalues : ∀ m ∈ members.map fun m => (m.1, m.2.text), IsValue m.2 :=
    List.forall_mem_map.mpr h
  have hobject := objectOf_writeObject hvalues
  rw [List.map_map, List.map_map] at hobject
  rw [text_object]
  exact hobject

/-- **Every written document is well formed.** -/
theorem isValue_text (w : Written) : IsValue w.text := by
  induction w using Written.induction with
  | boolean b =>
    cases b
    · exact .false
    · exact .true
  | string s => exact .string (spells_escaped _).isStringBody
  | array items ih => exact (arrayOf_text_of ih).isValue
  | object members ih => exact (objectOf_text_of ih).isValue

theorem arrayOf_text (items : List Written) :
    ArrayOf (items.map Written.text) (array items).text :=
  arrayOf_text_of fun w _ => w.isValue_text

theorem objectOf_text (members : List (String × Written)) :
    ObjectOf (members.map fun m => (m.1.toList.flatMap escapeChar, m.2.text))
      (object members).text :=
  objectOf_text_of fun m _ => m.2.isValue_text

end Written

end ConfigSchema.Json
