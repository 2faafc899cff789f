import ConfigSchema.Proofs.Reading.Agreement
import ConfigSchema.Proofs.Reading.StringBodies
import Mathlib.Data.List.Forall2

/-!
# What is read of a value does not depend on its place

A typed reader that is given a well-formed value, with something behind it, may turn the value
down. If it does not, then it takes the whole value and nothing else, and it would have read the
same of it anywhere (`ConfigSchema.Reading.Reader.IsLocal`). So the result of a local reader can be
said of the value alone (`ConfigSchema.Reading.Reader.ReadsAs`), and what is read of an array can be
said of its elements, one by one, without a word on commas and spaces
(`ConfigSchema.Reading.Decoder.list_readsExactly`).

Numbers are not local: what follows a number may go on with it. But none of the readers here accepts
a number, so it is enough to know that a value which is a number is read as one.

The grammar lays out elements as a text; the loops go along an input. In between stands what the
layout comes to on the input (`ConfigSchema.Reading.ElementsStand`).
-/

namespace ConfigSchema.Reading

open Json.Grammar

variable {α β : Type} {s t r rest : Input} {ws text value : List Char} {x : α}

/-! ### Local readers -/

/-- **A text is read as a result** wherever it stands: after any spaces, and whatever follows. -/
def Reader.ReadsAs (read : Reader α) (text : List Char) (x : α) : Prop :=
  ∀ ⦃ws⦄, IsSpaces ws → ∀ rest, read.Reads (symbols ws ++ (symbols text ++ rest)) x rest

/-- **All of a text is read and nothing more**, wherever it stands; the results are those of which
`P` holds. -/
def Reader.ReadsExactly (read : Reader α) (text : List Char) (P : α → Prop) : Prop :=
  ∀ ⦃ws⦄, IsSpaces ws → ∀ rest x r,
    read.Reads (symbols ws ++ (symbols text ++ rest)) x r ↔ r = rest ∧ P x

/-- **A local reader** takes of a well-formed value all and nothing more, wherever it stands. -/
def Reader.IsLocal (read : Reader α) : Prop :=
  ∀ ⦃value⦄, IsValue value → ∃ P, read.ReadsExactly value P

namespace Reader

variable {read : Reader α} {P : α → Prop}

theorem ReadsExactly.readsAs_iff (h : read.ReadsExactly text P) : read.ReadsAs text x ↔ P x := by
  constructor
  · intro hread
    exact ((h isSpaces_nil [] x []).mp (hread isSpaces_nil [])).2
  · intro hx ws hws rest
    exact (h hws rest x rest).mpr ⟨rfl, hx⟩

/-- A text that is turned down wherever it stands is read exactly, too. -/
theorem readsExactly_of_refuses
    (h : ∀ ⦃ws⦄, IsSpaces ws → ∀ rest x r,
      ¬ read.Reads (symbols ws ++ (symbols text ++ rest)) x r) :
    read.ReadsExactly text fun _ => False :=
  fun _ hws rest x r => ⟨fun hread => absurd hread (h hws rest x r), fun hx => hx.2.elim⟩

/-- **What a local reader reads of a value** it reads of it anywhere. -/
theorem IsLocal.reads_iff (h : read.IsLocal) (hvalue : IsValue value) (hws : IsSpaces ws) :
    read.Reads (symbols ws ++ (symbols value ++ rest)) x r ↔
      r = rest ∧ read.ReadsAs value x := by
  obtain ⟨P, hP⟩ := h hvalue
  rw [hP hws, hP.readsAs_iff]

/-- A result that is changed by a function is read where the result is. -/
theorem readsAs_map (f : α → β) (h : read.ReadsAs text x) :
    (Reader.map f read).ReadsAs text (f x) :=
  fun _ hws rest => reads_map_iff.mpr ⟨x, h hws rest, rfl⟩

theorem IsLocal.map (h : read.IsLocal) (f : α → β) : (Reader.map f read).IsLocal := by
  intro value hvalue
  refine ⟨fun y => ∃ x, read.ReadsAs value x ∧ f x = y, fun ws hws rest y r => ?_⟩
  rw [reads_map_iff]
  simp only [h.reads_iff hvalue hws]
  constructor
  · rintro ⟨x, ⟨rfl, hx⟩, hy⟩
    exact ⟨rfl, x, hx, hy⟩
  · rintro ⟨rfl, x, hx, hy⟩
    exact ⟨x, ⟨rfl, hx⟩, hy⟩

/-- What is read of a value by a changed reader is a changed result. -/
theorem IsLocal.readsAs_map_iff (h : read.IsLocal) (hvalue : IsValue value) {f : α → β} {y : β} :
    (Reader.map f read).ReadsAs value y ↔ ∃ x, read.ReadsAs value x ∧ f x = y := by
  constructor
  · intro hread
    obtain ⟨x, hx, rfl⟩ := reads_map_iff.mp (hread isSpaces_nil [])
    exact ⟨x, ((h.reads_iff hvalue isSpaces_nil).mp hx).2, rfl⟩
  · rintro ⟨x, hx, rfl⟩
    exact readsAs_map f hx

end Reader

/-! ### Scalars -/

section Scalars

variable {c : Char} {l : Lexeme}

/-- A value that begins with no digit is read from its first character on. -/
theorem lexeme_reads_cons_iff (hws : IsSpaces ws) (hspace : (Symbol.char c).isSpace = false)
    (hdigit : c.isDigit = false) :
    lexeme.Reads (symbols ws ++ (symbols (c :: text) ++ rest)) l r ↔
      (lexemeAfter c).Reads (symbols text ++ rest) l r := by
  have hbegins : Begins (symbols ws ++ (symbols (c :: text) ++ rest)) (.char c)
      (symbols text ++ rest) := begins_spaces hws hspace
  rw [lexeme_reads_iff]
  constructor
  · rintro ⟨d, t, hd, hread⟩
    obtain ⟨hc, rfl⟩ := hbegins.unique hd
    obtain rfl := Symbol.char.inj hc
    rcases hread with ⟨hdigit', -⟩ | ⟨-, hread⟩
    · rw [hdigit] at hdigit'
      cases hdigit'
    · exact hread
  · intro hread
    exact ⟨c, _, hbegins, Or.inr ⟨hdigit, hread⟩⟩

/-- A value whose lexeme is known from what follows its first character is read as it. -/
theorem lexeme_of_lexemeAfter (hspace : (Symbol.char c).isSpace = false)
    (hdigit : c.isDigit = false)
    (h : ∀ rest, (lexemeAfter c).Reads (symbols text ++ rest) l rest) (hws : IsSpaces ws)
    {l' : Lexeme} (hread : lexeme.Reads (symbols ws ++ (symbols (c :: text) ++ rest)) l' r) :
    r = rest ∧ lexeme.ReadsAs (c :: text) l' := by
  have hread := (lexeme_reads_cons_iff hws hspace hdigit).mp hread
  obtain ⟨rfl, rfl⟩ := hread.unique (h rest)
  exact ⟨rfl, fun _ hws rest => (lexeme_reads_cons_iff hws hspace hdigit).mpr (h rest)⟩

/-- **Words and strings are read locally**; of a number and of a bracket it is only known what they
are read as. -/
theorem lexeme_of_isValue (h : IsValue value) (hws : IsSpaces ws)
    (hread : lexeme.Reads (symbols ws ++ (symbols value ++ rest)) l r)
    (hnumber : ∀ n, l ≠ .number n) (harray : l ≠ .array) (hobject : l ≠ .object) :
    r = rest ∧ lexeme.ReadsAs value l := by
  cases h with
  | null =>
    exact lexeme_of_lexemeAfter rfl rfl (fun _ => Reader.reads_iff.mpr rfl) hws hread
  | true =>
    exact lexeme_of_lexemeAfter rfl rfl (fun _ => Reader.reads_iff.mpr rfl) hws hread
  | false =>
    exact lexeme_of_lexemeAfter rfl rfl (fun _ => Reader.reads_iff.mpr rfl) hws hread
  | number hunsigned =>
    obtain ⟨c, text, rfl, hc⟩ := exists_digit_of_isUnsigned hunsigned
    obtain ⟨d, t, hd, hread⟩ := lexeme_reads_iff.mp hread
    obtain ⟨heq, -⟩ := (begins_spaces hws (not_isSpace_of_isDigit hc).1).unique hd
    obtain rfl := Symbol.char.inj heq
    rcases hread with ⟨-, hread⟩ | ⟨hdigit, -⟩
    · obtain ⟨n, -, rfl⟩ := Reader.reads_map_iff.mp hread
      exact absurd rfl (hnumber n)
    · rw [hc] at hdigit
      cases hdigit
  | negative =>
    have hread := (lexeme_reads_cons_iff hws rfl rfl).mp hread
    obtain ⟨n, -, rfl⟩ := Reader.reads_map_iff.mp hread
    exact absurd rfl (hnumber n)
  | @string body hbody =>
    have hread' : (lexemeAfter '"').Reads (symbols (body ++ ['"']) ++ rest) l r :=
      (lexeme_reads_cons_iff hws rfl rfl).mp hread
    obtain ⟨name, hname, -⟩ := Reader.reads_map_iff.mp hread'
    rw [symbols_append, List.append_assoc] at hname
    have hspells := ((string_reads_iff_spells hbody).mp hname).2
    have hquoted : ∀ rest,
        (lexemeAfter '"').Reads (symbols (body ++ ['"']) ++ rest) (.string name) rest := by
      intro rest
      rw [symbols_append, List.append_assoc]
      exact Reader.reads_map_iff.mpr ⟨name, string_of_spells hspells, rfl⟩
    exact lexeme_of_lexemeAfter rfl rfl hquoted hws hread
  | array hlayout =>
    obtain ⟨inside, rfl, -⟩ := Bracketed.exists_inside hlayout
    have hread := (lexeme_reads_cons_iff hws rfl rfl).mp hread
    exact absurd (Prod.mk.inj (Except.ok.inj (Reader.reads_iff.mp hread))).1.symm harray
  | object hlayout =>
    obtain ⟨inside, rfl, -⟩ := Bracketed.exists_inside hlayout
    have hread := (lexeme_reads_cons_iff hws rfl rfl).mp hread
    exact absurd (Prod.mk.inj (Except.ok.inj (Reader.reads_iff.mp hread))).1.symm hobject

end Scalars

namespace Decoder

/-- A scalar that is neither a number nor a bracket is read locally. -/
theorem scalar_isLocal {judge : Lexeme → Except Fault α}
    (hjudge : ∀ l x, judge l = .ok x → (∀ n, l ≠ .number n) ∧ l ≠ .array ∧ l ≠ .object) :
    (scalar judge).ofText.IsLocal := by
  intro value hvalue
  refine ⟨fun x => ∃ l, lexeme.ReadsAs value l ∧ judge l = .ok x, fun ws hws rest x r => ?_⟩
  rw [scalar_reads_iff]
  constructor
  · rintro ⟨l, hl, hx⟩
    obtain ⟨hnumber, harray, hobject⟩ := hjudge l x hx
    obtain ⟨rfl, hvalue⟩ := lexeme_of_isValue hvalue hws hl hnumber harray hobject
    exact ⟨rfl, l, hvalue, hx⟩
  · rintro ⟨rfl, l, hl, hx⟩
    exact ⟨l, hl hws r, hx⟩

theorem string_isLocal : string.ofText.IsLocal :=
  scalar_isLocal fun l x h => by cases l <;> simp_all

theorem boolean_isLocal : boolean.ofText.IsLocal :=
  scalar_isLocal fun l x h => by cases l <;> simp_all

end Decoder

/-! ### Brackets -/

/-- Where brackets stand the opening one is met first. -/
theorem begins_bracketed_iff {opening closing : Char} {inside : List Char} {x : Symbol}
    (hopening : (Symbol.char opening).isSpace = false) (hws : IsSpaces ws) :
    Begins (symbols ws ++ (symbols (opening :: (inside ++ [closing])) ++ rest)) x t ↔
      x = .char opening ∧ t = symbols inside ++ .char closing :: rest := by
  have hbegins : Begins (symbols ws ++ (symbols (opening :: (inside ++ [closing])) ++ rest))
      (.char opening) (symbols inside ++ .char closing :: rest) := by
    have hbegins := begins_spaces (r := symbols (inside ++ [closing]) ++ rest) hws hopening
    rw [symbols_append, List.append_assoc] at hbegins
    simpa only [symbols_append, symbols_cons, symbols_nil, List.append_assoc, List.cons_append,
      List.nil_append] using hbegins
  constructor
  · intro h
    obtain ⟨rfl, rfl⟩ := h.unique hbegins
    exact ⟨rfl, rfl⟩
  · rintro ⟨rfl, rfl⟩
    exact hbegins

/-- **The elements of an array stand in an input**, each with its separator and spaces before it,
up to the end of the array. -/
inductive ElementsStand : Bool → Input → List (List Char) → Input → Prop
  /-- The array ends. -/
  | nil {first : Bool} {s r : Input} (close : Begins s (.char ']') r) : ElementsStand first s [] r
  /-- There is an element. -/
  | cons {first : Bool} {s t r : Input} {before value : List Char} {items : List (List Char)}
      (separated : Separated first s (symbols before ++ (symbols value ++ t)))
      (spaces : IsSpaces before) (isValue : IsValue value) (tail : ElementsStand false t items r) :
    ElementsStand first s (value :: items) r

section Elements

variable {first : Bool} {items : List (List Char)}

/-- Elements in a row stand where the closing bracket is behind them. -/
theorem elementsStand_of_joined (hlayout : Joined IsElement items text)
    (hitems : ∀ value ∈ items, IsValue value)
    (hsep : Separated first s (symbols text ++ .char ']' :: rest)) :
    ElementsStand first s items rest := by
  induction hlayout generalizing first s with
  | one hpart =>
    obtain @⟨before, behind, hbefore, hbehind⟩ := hpart
    rw [symbols_append, symbols_append, List.append_assoc, List.append_assoc] at hsep
    exact .cons hsep hbefore (hitems _ List.mem_cons_self) (.nil (begins_spaces hbehind rfl))
  | @more _ _ _ others hpart _ ih =>
    obtain ⟨hvalue, hitems⟩ := List.forall_mem_cons.mp hitems
    obtain @⟨before, behind, hbefore, hbehind⟩ := hpart
    simp only [symbols_append, symbols_cons, List.append_assoc, List.cons_append] at hsep
    have hcomma : Separated false
        (symbols behind ++ .char ',' :: (symbols others ++ .char ']' :: rest)) _ :=
      .later (begins_spaces hbehind rfl)
    exact .cons hsep hbefore hvalue (ih hitems hcomma)

/-- The elements of an array stand behind its opening bracket. -/
theorem elementsStand_of_arrayOf (harray : ArrayOf items text) (hws : IsSpaces ws) (rest : Input) :
    ∃ s, Begins (symbols ws ++ (symbols text ++ rest)) (.char '[') s ∧
      ElementsStand true s items rest := by
  obtain ⟨inside, rfl, hinside⟩ := Bracketed.exists_inside harray.layout
  refine ⟨_, (begins_bracketed_iff rfl hws).mpr ⟨rfl, rfl⟩, ?_⟩
  rcases hinside with ⟨rfl, hspaces⟩ | hjoined
  · exact .nil (begins_spaces hspaces rfl)
  · exact elementsStand_of_joined hjoined harray.values .first

/-- Where an element stands its first character is met, which does not end the array. -/
theorem exists_begins_of_isValue (h : IsValue value) (hws : IsSpaces ws) :
    ∃ x u, Begins (symbols ws ++ (symbols value ++ t)) x u ∧ x ≠ .char ']' ∧
      x :: u = symbols value ++ t := by
  obtain ⟨c, value, rfl, hspace, hc⟩ := exists_first_of_isValue h
  exact ⟨.char c, _, begins_spaces hws hspace, fun heq => hc (Symbol.char.inj heq), rfl⟩

/-- **What is read of the elements that stand in an input** is what is read of each. -/
theorem ElementsStand.elementsRead_iff {item : Reader α} {xs : List α} (hitem : item.IsLocal)
    (h : ElementsStand first s items rest) :
    ElementsRead item first s xs r ↔ r = rest ∧ List.Forall₂ item.ReadsAs items xs := by
  induction h generalizing xs with
  | nil hclose =>
    constructor
    · intro h
      rcases h with hclose' | ⟨hsep, hbegins, hne, -, -⟩
      · exact ⟨(hclose'.unique hclose).2, .nil⟩
      · exact absurd hclose (hsep.not_begins hbegins hne (by decide))
    · rintro ⟨rfl, hxs⟩
      cases hxs
      exact .nil hclose
  | @cons _ _ t _ _ value _ hsep hspaces hvalue _ ih =>
    obtain ⟨x, u, hbegins, hne, hu⟩ := exists_begins_of_isValue (t := t) hvalue hspaces
    have hread : ∀ a s, item.Reads (x :: u) a s ↔ s = t ∧ item.ReadsAs value a := by
      intro a s
      rw [hu]
      exact hitem.reads_iff hvalue isSpaces_nil
    constructor
    · intro h
      rcases h with hclose | ⟨hsep', hbegins', -, hhead, htail⟩
      · exact absurd hclose (hsep.not_begins hbegins hne (by decide))
      · obtain rfl := hsep.unique hsep'
        obtain ⟨rfl, rfl⟩ := hbegins.unique hbegins'
        obtain ⟨rfl, hhead⟩ := (hread ..).mp hhead
        obtain ⟨rfl, htail⟩ := ih.mp htail
        exact ⟨rfl, .cons hhead htail⟩
    · rintro ⟨rfl, hxs⟩
      rcases hxs with _ | ⟨hhead, htail⟩
      exact .cons hsep hbegins hne ((hread ..).mpr ⟨rfl, hhead⟩) (ih.mpr ⟨rfl, htail⟩)

end Elements

/-- A value that begins with a bracket is an array or an object, as the bracket says. -/
theorem exists_layout_of_begins {c : Char} (h : IsValue value) (hws : IsSpaces ws)
    (hbegins : Begins (symbols ws ++ (symbols value ++ rest)) (.char c) t) :
    (c = '[' → ∃ items, ArrayOf items value) ∧
      (c = '\x7b' → ∃ members, ObjectOf members value) := by
  have hfirst : ∀ {d : Char} {text : List Char}, value = d :: text →
      (Symbol.char d).isSpace = false → d = c := by
    rintro d text rfl hspace
    exact Symbol.char.inj ((begins_spaces hws hspace).unique hbegins).1
  rcases h with _ | _ | _ | hunsigned | _ | _ | ⟨hlayout, hvalues⟩ | ⟨hlayout, hkeys, hvalues⟩
  case array =>
    obtain ⟨inside, rfl, -⟩ := Bracketed.exists_inside hlayout
    obtain rfl := hfirst rfl rfl
    exact ⟨fun _ => ⟨_, ⟨hlayout, hvalues⟩⟩, fun h => absurd h (by decide)⟩
  case object =>
    obtain ⟨inside, rfl, -⟩ := Bracketed.exists_inside hlayout
    obtain rfl := hfirst rfl rfl
    exact ⟨fun h => absurd h (by decide), fun _ => ⟨_, ⟨hlayout, hkeys, hvalues⟩⟩⟩
  case number =>
    obtain ⟨d, text, rfl, hd⟩ := exists_digit_of_isUnsigned hunsigned
    obtain rfl := hfirst rfl (not_isSpace_of_isDigit hd).1
    constructor <;> rintro rfl <;> cases hd
  all_goals
    obtain rfl := hfirst rfl rfl
    exact ⟨fun h => absurd h (by decide), fun h => absurd h (by decide)⟩

/-! ### Lists -/

namespace Decoder

variable {item : Decoder α} {items : List (List Char)}

/-- **What is read of an array** is what is read of its elements. -/
theorem list_readsExactly (hitem : item.ofText.IsLocal) (harray : ArrayOf items text) :
    (list (some item)).ofText.ReadsExactly text (List.Forall₂ item.ofText.ReadsAs items) := by
  intro ws hws rest xs r
  obtain ⟨s, hbegins, hstand⟩ := elementsStand_of_arrayOf harray hws rest
  rw [list_reads_iff]
  constructor
  · rintro ⟨s', hhead, hxs⟩
    obtain ⟨-, rfl⟩ := hbegins.unique (lexeme_array_reads_iff.mp hhead)
    exact (hstand.elementsRead_iff hitem).mp hxs
  · intro hxs
    exact ⟨s, lexeme_array_reads_iff.mpr hbegins, (hstand.elementsRead_iff hitem).mpr hxs⟩

/-- An element may be replaced by one that is read alike. -/
theorem list_readsAs_replace {before after : List (List Char)} {value' text' : List Char}
    {xs : List α} (hitem : item.ofText.IsLocal) (harray : ArrayOf (before ++ value :: after) text)
    (harray' : ArrayOf (before ++ value' :: after) text')
    (hvalue : ∀ x, item.ofText.ReadsAs value x → item.ofText.ReadsAs value' x)
    (h : (list (some item)).ofText.ReadsAs text xs) :
    (list (some item)).ofText.ReadsAs text' xs := by
  have hxs := (list_readsExactly hitem harray).readsAs_iff.mp h
  refine (list_readsExactly hitem harray').readsAs_iff.mpr ?_
  clear harray harray' h
  induction before generalizing xs with
  | nil =>
    rcases hxs with _ | ⟨hhead, htail⟩
    exact .cons (hvalue _ hhead) htail
  | cons other before ih =>
    rcases hxs with _ | ⟨hhead, htail⟩
    exact .cons hhead (ih htail)

/-- **A list is read locally** if its elements are. -/
theorem list_isLocal (hitem : item.ofText.IsLocal) : (list (some item)).ofText.IsLocal := by
  intro value hvalue
  by_cases h : ∃ items, ArrayOf items value
  · obtain ⟨items, harray⟩ := h
    exact ⟨_, list_readsExactly hitem harray⟩
  · refine ⟨_, Reader.readsExactly_of_refuses fun ws hws rest xs r hread => h ?_⟩
    obtain ⟨s, hhead, -⟩ := list_reads_iff.mp hread
    exact (exists_layout_of_begins hvalue hws (lexeme_array_reads_iff.mp hhead)).1 rfl

/-- Where no level is left a list is turned down everywhere. -/
theorem list_none_isLocal : (list (none : Option (Decoder α))).ofText.IsLocal := fun _ _ =>
  ⟨_, Reader.readsExactly_of_refuses fun _ _ _ _ _ => not_list_none_reads⟩

end Decoder

end ConfigSchema.Reading
