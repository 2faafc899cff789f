import ConfigSchema.Proofs.Reading.Local
import ConfigSchema.Proofs.Reading.RecordAgreement

/-!
# What is read of a record can be said of its members

A record that is written as an object is read from its members, one after the other: a member that
the record has is read, unless it has been before, and every other one is passed over
(`ConfigSchema.Reading.RecordShape.Collected`). The members of a record that is written as an array
are its elements (`ConfigSchema.Reading.RecordShape.Fills`). Neither says anything of the layout, so
a record is read locally if its members are (`ConfigSchema.Reading.RecordShape.decoder_isLocal`).

On the draft of a record the members of an object are steps, and the members of a record are
independent of one another. So the members may stand in any order
(`ConfigSchema.Reading.RecordShape.Collects.perm`), a member that the record does not have may be
put in anywhere, and so may a member that says what is taken without it
(`ConfigSchema.Reading.RecordShape.IsDefault`).
-/

namespace ConfigSchema.Reading

open Json.Grammar

variable {α σ : Type} {s t r rest : Input} {ws text : List Char} {first : Bool}

/-! ### Members in an input -/

/-- **The members of an object stand in an input**, each with its separator, its key and its colon
before the value, up to the end of the object. -/
inductive MembersStand : Bool → Input → List (List Char × List Char) → Input → Prop
  /-- The object ends. -/
  | nil {first : Bool} {s r : Input} (close : Begins s (.char '\x7d') r) : MembersStand first s [] r
  /-- There is a member. -/
  | cons {first : Bool} {s s₁ s₂ t r : Input} {key before value : List Char}
      {members : List (List Char × List Char)} (separated : Separated first s s₁)
      (quote : Begins s₁ (.char '"') (symbols key ++ .char '"' :: s₂)) (isKey : IsStringBody key)
      (colon : Begins s₂ (.char ':') (symbols before ++ (symbols value ++ t)))
      (spaces : IsSpaces before) (isValue : IsValue value) (delimited : Delimited t)
      (tail : MembersStand false t members r) : MembersStand first s ((key, value) :: members) r

section Members

variable {members : List (List Char × List Char)}

/-- Members in a row stand where the closing brace is behind them. -/
theorem membersStand_of_joined (hlayout : Joined IsMember members text)
    (hkeys : ∀ m ∈ members, IsStringBody m.1) (hvalues : ∀ m ∈ members, IsValue m.2)
    (hsep : Separated first s (symbols text ++ .char '\x7d' :: rest)) :
    MembersStand first s members rest := by
  induction hlayout generalizing first s with
  | one hpart =>
    have hkey := List.forall_mem_singleton.mp hkeys
    have hvalue := List.forall_mem_singleton.mp hvalues
    obtain ⟨hbeforeKey, hbehindKey, hbefore, hbehind⟩ := hpart
    simp only [symbols_append, symbols_cons, List.append_assoc, List.cons_append] at hsep
    exact .cons hsep (begins_spaces hbeforeKey rfl) hkey (begins_spaces hbehindKey rfl) hbefore
      hvalue (delimited_spaces hbehind (by simp)) (.nil (begins_spaces hbehind rfl))
  | @more _ _ _ others hpart _ ih =>
    obtain ⟨hkey, hkeys'⟩ := List.forall_mem_cons.mp hkeys
    obtain ⟨hvalue, hvalues'⟩ := List.forall_mem_cons.mp hvalues
    obtain @⟨_, _, _, _, _, behind, hbeforeKey, hbehindKey, hbefore, hbehind⟩ := hpart
    simp only [symbols_append, symbols_cons, List.append_assoc, List.cons_append] at hsep
    have hcomma : Separated false
        (symbols behind ++ .char ',' :: (symbols others ++ .char '\x7d' :: rest)) _ :=
      .later (begins_spaces hbehind rfl)
    exact .cons hsep (begins_spaces hbeforeKey rfl) hkey (begins_spaces hbehindKey rfl) hbefore
      hvalue (delimited_spaces hbehind (by simp)) (ih hkeys' hvalues' hcomma)

/-- The members of an object stand behind its opening brace. -/
theorem membersStand_of_objectOf (hobject : ObjectOf members text) (hws : IsSpaces ws)
    (rest : Input) :
    ∃ s, Begins (symbols ws ++ (symbols text ++ rest)) (.char '\x7b') s ∧
      MembersStand true s members rest := by
  obtain ⟨inside, rfl, hinside⟩ := Bracketed.exists_inside hobject.layout
  refine ⟨_, (begins_bracketed_iff rfl hws).mpr ⟨rfl, rfl⟩, ?_⟩
  rcases hinside with ⟨rfl, hspaces⟩ | hjoined
  · exact .nil (begins_spaces hspaces rfl)
  · exact membersStand_of_joined hjoined hobject.keys hobject.values .first

end Members

namespace RecordShape

variable {ms : List (Member σ)} {m : Member σ} {draft draft' last : σ}
  {members : List (List Char × List Char)} {items : List (List Char)}

/-! ### Members of an object -/

/-- **A draft takes a member of an object in**: one that the record has is read, and must not have
been read before; every other one is passed over. -/
inductive Collected (ms : List (Member σ)) : List Char × List Char → σ → σ → Prop
  /-- The record does not have the member. -/
  | skipped {key value : List Char} {name : String} {draft : σ} (spelled : Spells key name.toList)
      (unknown : named? ms name = none) : Collected ms (key, value) draft draft
  /-- The member is read. -/
  | read {key value : List Char} {name : String} {draft : σ} {m : Member σ} {change : σ → σ}
      (spelled : Spells key name.toList) (known : named? ms name = some m)
      (new : m.given draft = false) (isRead : m.decoder.ofText.ReadsAs value change) :
    Collected ms (key, value) draft (change draft)

/-- **A draft takes all members of an object in**, one after the other. -/
inductive Collects (ms : List (Member σ)) : List (List Char × List Char) → σ → σ → Prop
  /-- There are no more members. -/
  | nil {draft : σ} : Collects ms [] draft draft
  /-- There is a member. -/
  | cons {e : List Char × List Char} {members : List (List Char × List Char)}
      {draft draft' last : σ} (head : Collected ms e draft draft')
      (tail : Collects ms members draft' last) :
    Collects ms (e :: members) draft last

/-- Behind its key a member is read as it is taken in. -/
theorem memberOfText_reads_iff_collected {key before value : List Char} {name : String}
    (hms : ∀ m ∈ ms, m.decoder.ofText.IsLocal) (hname : Spells key name.toList)
    (hcolon : Begins s (.char ':') (symbols before ++ (symbols value ++ t)))
    (hbefore : IsSpaces before) (hvalue : IsValue value) (ht : Delimited t) :
    (memberOfText ms draft name).Reads s draft' r ↔
      r = t ∧ Collected ms (key, value) draft draft' := by
  cases hm : named? ms name with
  | none =>
    rw [memberOfText_reads_iff_of_none hm]
    constructor
    · rintro ⟨s₁, hcolon', hskip, rfl⟩
      obtain ⟨-, rfl⟩ := hcolon.unique hcolon'
      obtain ⟨-, rfl⟩ := hskip.unique (skip_of_isValue hvalue hbefore ht)
      exact ⟨rfl, .skipped hname hm⟩
    · rintro ⟨rfl, hcollected⟩
      rcases hcollected with _ | ⟨hname', hm'⟩
      · exact ⟨_, hcolon, skip_of_isValue hvalue hbefore ht, rfl⟩
      · rw [name_eq_of_spells hname' hname, hm] at hm'
        cases hm'
  | some m =>
    have hlocal : ∀ change r, m.decoder.ofText.Reads (symbols before ++ (symbols value ++ t))
        change r ↔ r = t ∧ m.decoder.ofText.ReadsAs value change :=
      fun _ _ => (hms m (mem_of_named? hm)).reads_iff hvalue hbefore
    rw [memberOfText_reads_iff_of_some hm]
    constructor
    · rintro ⟨hnew, s₁, change, hcolon', hchange, rfl⟩
      obtain ⟨-, rfl⟩ := hcolon.unique hcolon'
      obtain ⟨rfl, hread⟩ := (hlocal ..).mp hchange
      exact ⟨rfl, .read hname hm hnew hread⟩
    · rintro ⟨rfl, hcollected⟩
      rcases hcollected with ⟨hname', hm'⟩ | ⟨hname', hm', hnew, hchange⟩
      · rw [name_eq_of_spells hname' hname, hm] at hm'
        cases hm'
      · rw [name_eq_of_spells hname' hname, hm] at hm'
        obtain rfl := Option.some.inj hm'
        exact ⟨hnew, _, _, hcolon, (hlocal ..).mpr ⟨rfl, hchange⟩, rfl⟩

/-- **What is read of the members that stand in an input** is that the draft takes them in. -/
theorem membersRun_iff_collects (hms : ∀ m ∈ ms, m.decoder.ofText.IsLocal)
    (h : MembersStand first s members rest) :
    MembersRun (memberOfText ms) first draft s last r ↔
      r = rest ∧ Collects ms members draft last := by
  induction h generalizing draft with
  | nil hclose =>
    constructor
    · intro hrun
      rcases hrun with hclose' | ⟨⟨s₁, s₂, hsep, hquote, -⟩, -, -⟩
      · exact ⟨(hclose'.unique hclose).2, .nil⟩
      · exact absurd hclose (hsep.not_begins hquote (by decide) (by decide))
    · rintro ⟨rfl, hcollects⟩
      cases hcollects
      exact .done hclose
  | @cons _ _ _ _ _ _ key _ value _ hsep hquote hkey hcolon hbefore hvalue ht _ ih =>
    constructor
    · intro hrun
      rcases hrun with hclose | ⟨⟨s₁, s₂, hsep', hquote', hname⟩, hstep, hrun⟩
      · exact absurd hclose (hsep.not_begins hquote (by decide) (by decide))
      · obtain rfl := hsep.unique hsep'
        obtain ⟨-, rfl⟩ := hquote.unique hquote'
        obtain ⟨rfl, hspells⟩ := (string_reads_iff_spells hkey).mp hname
        obtain ⟨rfl, hhead⟩ :=
          (memberOfText_reads_iff_collected hms hspells hcolon hbefore hvalue ht).mp hstep
        obtain ⟨rfl, htail⟩ := ih.mp hrun
        exact ⟨rfl, .cons hhead htail⟩
    · rintro ⟨rfl, hcollects⟩
      rcases hcollects with _ | ⟨hhead, htail⟩
      obtain ⟨name, hname⟩ : ∃ name : String, Spells key name.toList := by
        rcases hhead with ⟨hname, -⟩ | ⟨hname, -⟩ <;> exact ⟨_, hname⟩
      have hstep := (memberOfText_reads_iff_collected hms hname hcolon hbefore hvalue ht).mpr
        ⟨rfl, hhead⟩
      exact .more ⟨_, _, hsep, hquote, string_of_spells hname⟩ hstep (ih.mpr ⟨rfl, htail⟩)

/-! ### Elements of an array -/

/-- **The elements of an array fill a draft**, in the order of the record, of which optional members
may be left out at the end. -/
inductive Fills : List (Member σ) → List (List Char) → σ → σ → Prop
  /-- There are no more members. -/
  | nil {draft : σ} : Fills [] [] draft draft
  /-- A member is read. -/
  | read {m : Member σ} {ms : List (Member σ)} {value : List Char} {items : List (List Char)}
      {draft last : σ} {change : σ → σ} (isRead : m.decoder.ofText.ReadsAs value change)
      (rest : Fills ms items (change draft) last) : Fills (m :: ms) (value :: items) draft last
  /-- A member is left out. -/
  | absent {m : Member σ} {ms : List (Member σ)} {draft last : σ} (optional : m.optional = true)
      (rest : Fills ms [] draft last) : Fills (m :: ms) [] draft last

/-- **What is read of the elements that stand in an input** is that they fill the draft. -/
theorem itemsOfText_reads_iff_fills {tooShort : Nat → Fault} {index : Nat}
    (hms : ∀ m ∈ ms, m.decoder.ofText.IsLocal) (h : ElementsStand first s items rest) :
    (itemsOfText tooShort ms index first draft).Reads s last r ↔
      r = rest ∧ Fills ms items draft last := by
  induction ms generalizing s items index first draft with
  | nil =>
    rw [itemsOfText_nil_reads_iff]
    rcases h with hclose | ⟨hsep, hspaces, hvalue, -⟩
    · constructor
      · rintro ⟨rfl, hclose'⟩
        exact ⟨(hclose'.unique hclose).2, .nil⟩
      · rintro ⟨rfl, hfills⟩
        cases hfills
        exact ⟨rfl, hclose⟩
    · constructor
      · rintro ⟨-, hclose⟩
        obtain ⟨x, u, hbegins, hne, -⟩ := exists_begins_of_isValue hvalue hspaces
        exact absurd hclose (hsep.not_begins hbegins hne (by decide))
      · rintro ⟨-, hfills⟩
        cases hfills
  | cons m ms ih =>
    obtain ⟨hm, hms⟩ := List.forall_mem_cons.mp hms
    rw [itemsOfText_cons_reads_iff]
    rcases h with hclose | @⟨_, _, t, _, _, value, _, hsep, hspaces, hvalue, htail⟩
    · constructor
      · rintro (⟨s₁, x, s₂, change, s₃, hsep, hbegins, hne, -⟩ | ⟨hoptional, t, hclose', hlast⟩)
        · exact absurd hclose (hsep.not_begins hbegins hne (by decide))
        · obtain ⟨-, rfl⟩ := hclose.unique hclose'
          obtain ⟨rfl, hrest⟩ := (ih hms (.nil hclose.here)).mp hlast
          exact ⟨rfl, .absent hoptional hrest⟩
      · rintro ⟨rfl, hfills⟩
        rcases hfills with _ | _ | ⟨hoptional, hlast⟩
        exact Or.inr ⟨hoptional, _, hclose, (ih hms (.nil hclose.here)).mpr ⟨rfl, hlast⟩⟩
    · obtain ⟨x, u, hbegins, hne, hu⟩ := exists_begins_of_isValue (t := t) hvalue hspaces
      have hread : ∀ a s, m.decoder.ofText.Reads (x :: u) a s ↔
          s = t ∧ m.decoder.ofText.ReadsAs value a := by
        intro a s
        rw [hu]
        exact hm.reads_iff hvalue isSpaces_nil
      constructor
      · rintro (⟨s₁, y, s₂, change, s₃, hsep', hbegins', -, hchange, hlast⟩ | ⟨-, t, hclose, -⟩)
        · obtain rfl := hsep.unique hsep'
          obtain ⟨rfl, rfl⟩ := hbegins.unique hbegins'
          obtain ⟨rfl, hhead⟩ := (hread ..).mp hchange
          obtain ⟨rfl, hrest⟩ := (ih hms htail).mp hlast
          exact ⟨rfl, .read hhead hrest⟩
        · exact absurd hclose (hsep.not_begins hbegins hne (by decide))
      · rintro ⟨rfl, hfills⟩
        rcases hfills with _ | ⟨hchange, hlast⟩ | _
        exact Or.inl ⟨_, _, _, _, _, hsep, hbegins, hne, (hread ..).mpr ⟨rfl, hchange⟩,
          (ih hms htail).mpr ⟨rfl, hlast⟩⟩

/-! ### The record -/

section Decoder

variable {shape : RecordShape α σ} {x : α}

/-- **A record is made from the members of an object.** -/
def MadeFrom (shape : RecordShape α σ) (ms : List (Member σ))
    (members : List (List Char × List Char)) (x : α) : Prop :=
  ∃ draft, Collects ms members shape.blank draft ∧ shape.finish draft = .ok x

/-- **What is read of an object** is the record that is made from its members. -/
theorem decoder_readsExactly_object (hms : ∀ m ∈ ms, m.decoder.ofText.IsLocal)
    (hobject : ObjectOf members text) :
    (shape.decoder (some ms)).ofText.ReadsExactly text (shape.MadeFrom ms members) := by
  intro ws hws rest x r
  obtain ⟨s, hbegins, hstand⟩ := membersStand_of_objectOf hobject hws rest
  rw [decoder_reads_iff]
  constructor
  · rintro ⟨draft, hfinish, ⟨s', hhead, hrun⟩ | ⟨s', hhead, -⟩⟩
    · obtain ⟨-, rfl⟩ := hbegins.unique (lexeme_object_reads_iff.mp hhead)
      obtain ⟨rfl, hcollects⟩ := (membersRun_iff_collects hms hstand).mp hrun
      exact ⟨rfl, draft, hcollects, hfinish⟩
    · cases (hbegins.unique (lexeme_array_reads_iff.mp hhead)).1
  · rintro ⟨hr, draft, hcollects, hfinish⟩
    exact ⟨draft, hfinish, Or.inl ⟨s, lexeme_object_reads_iff.mpr hbegins,
      (membersRun_iff_collects hms hstand).mpr ⟨hr, hcollects⟩⟩⟩

/-- **What is read of an array** is the record of the draft that its elements fill. -/
theorem decoder_readsExactly_array (hms : ∀ m ∈ ms, m.decoder.ofText.IsLocal)
    (harray : ArrayOf items text) :
    (shape.decoder (some ms)).ofText.ReadsExactly text fun x =>
      ∃ draft, Fills ms items shape.blank draft ∧ shape.finish draft = .ok x := by
  intro ws hws rest x r
  obtain ⟨s, hbegins, hstand⟩ := elementsStand_of_arrayOf harray hws rest
  rw [decoder_reads_iff]
  constructor
  · rintro ⟨draft, hfinish, ⟨s', hhead, -⟩ | ⟨s', hhead, hread⟩⟩
    · cases (hbegins.unique (lexeme_object_reads_iff.mp hhead)).1
    · obtain ⟨-, rfl⟩ := hbegins.unique (lexeme_array_reads_iff.mp hhead)
      obtain ⟨rfl, hfills⟩ := (itemsOfText_reads_iff_fills hms hstand).mp hread
      exact ⟨rfl, draft, hfills, hfinish⟩
  · rintro ⟨hr, draft, hfills, hfinish⟩
    exact ⟨draft, hfinish, Or.inr ⟨s, lexeme_array_reads_iff.mpr hbegins,
      (itemsOfText_reads_iff_fills hms hstand).mpr ⟨hr, hfills⟩⟩⟩

/-- **A record is read locally** if its members are. -/
theorem decoder_isLocal (hms : ∀ m ∈ ms, m.decoder.ofText.IsLocal) :
    (shape.decoder (some ms)).ofText.IsLocal := by
  intro value hvalue
  by_cases hobject : ∃ members, ObjectOf members value
  · obtain ⟨members, hobject⟩ := hobject
    exact ⟨_, decoder_readsExactly_object hms hobject⟩
  by_cases harray : ∃ items, ArrayOf items value
  · obtain ⟨items, harray⟩ := harray
    exact ⟨_, decoder_readsExactly_array hms harray⟩
  refine ⟨_, Reader.readsExactly_of_refuses fun ws hws rest x r hread => ?_⟩
  obtain ⟨draft, -, ⟨s, hhead, -⟩ | ⟨s, hhead, -⟩⟩ := decoder_reads_iff.mp hread
  · exact hobject ((exists_layout_of_begins hvalue hws (lexeme_object_reads_iff.mp hhead)).2 rfl)
  · exact harray ((exists_layout_of_begins hvalue hws (lexeme_array_reads_iff.mp hhead)).1 rfl)

/-- Where no level is left a record is turned down everywhere. -/
theorem decoder_none_isLocal : (shape.decoder none).ofText.IsLocal := fun _ _ =>
  ⟨_, Reader.readsExactly_of_refuses fun _ _ _ _ _ => not_decoder_none_reads⟩

end Decoder

/-! ### Other members that make the same record -/

section Independent

variable {blank : σ} (hind : Independent blank ms) {e e' : List Char × List Char}
  {members' before after : List (List Char × List Char)} {key value value' : List Char}
  {name : String}

/-- What is read as a change is one of the member. -/
theorem changes_of_readsAs {change : σ → σ} (h : m.decoder.ofText.ReadsAs value change) :
    m.Changes change :=
  Or.inl ⟨_, _, h isSpaces_nil []⟩

theorem collects_append_iff :
    Collects ms (members ++ members') draft last ↔
      ∃ draft', Collects ms members draft draft' ∧ Collects ms members' draft' last := by
  induction members generalizing draft with
  | nil =>
    constructor
    · intro h
      exact ⟨draft, .nil, h⟩
    · rintro ⟨draft', hnil, h⟩
      cases hnil
      exact h
  | cons e members ih =>
    constructor
    · intro h
      rcases h with _ | ⟨hhead, htail⟩
      obtain ⟨draft', hfirst, hlast⟩ := ih.mp htail
      exact ⟨draft', .cons hhead hfirst, hlast⟩
    · rintro ⟨draft', hfirst, hlast⟩
      rcases hfirst with _ | ⟨hhead, htail⟩
      exact .cons hhead (ih.mpr ⟨draft', htail, hlast⟩)

/-- The value of a member may be replaced by one that is read alike. -/
theorem Collects.replace (h : Collects ms (before ++ (key, value) :: after) draft last)
    (hname : Spells key name.toList) (hvalue : ∀ m, named? ms name = some m →
      ∀ change, m.decoder.ofText.ReadsAs value change → m.decoder.ofText.ReadsAs value' change) :
    Collects ms (before ++ (key, value') :: after) draft last := by
  obtain ⟨draft', hbefore, hrest⟩ := collects_append_iff.mp h
  rcases hrest with _ | ⟨hhead, htail⟩
  refine collects_append_iff.mpr ⟨draft', hbefore, .cons ?_ htail⟩
  rcases hhead with ⟨hname', hunknown⟩ | ⟨hname', hknown, hnew, hread⟩
  · exact .skipped hname' hunknown
  · obtain rfl := name_eq_of_spells hname' hname
    exact .read hname' hknown hnew (hvalue _ hknown _ hread)

include hind

/-- Two members may be taken in in either order: the same one is not taken in twice. -/
theorem Collected.comm (h : Collected ms e draft draft') (h' : Collected ms e' draft' last) :
    ∃ draft'', Collected ms e' draft draft'' ∧ Collected ms e draft'' last := by
  rcases h with ⟨hname, hunknown⟩ | @⟨_, _, _, _, m, change, hname, hknown, hnew, hread⟩
  · exact ⟨last, h', .skipped hname hunknown⟩
  rcases h' with ⟨hname', hunknown'⟩ | @⟨_, _, _, _, m', change', hname', hknown', hnew', hread'⟩
  · exact ⟨draft, .skipped hname' hunknown', .read hname hknown hnew hread⟩
  have hm := mem_of_named? hknown
  have hm' := mem_of_named? hknown'
  have hchange := changes_of_readsAs hread
  have hchange' := changes_of_readsAs hread'
  have hnames : m.name ≠ m'.name := by
    intro heq
    rw [name_of_named? hknown, name_of_named? hknown'] at heq
    rw [heq, hknown'] at hknown
    obtain rfl := Option.some.inj hknown
    rw [hind.given_own m' hm' change hchange draft] at hnew'
    cases hnew'
  have hapart := hind.apart m hm m' hm' hnames
  have hapart' := hind.apart m' hm' m hm hnames.symm
  rw [hapart.given change hchange] at hnew'
  rw [← hapart'.given change' hchange'] at hnew
  refine ⟨change' draft, .read hname' hknown' hnew' hread', ?_⟩
  rw [← hapart.comm change change' hchange hchange']
  exact .read hname hknown hnew hread

/-- **The members may stand in any order.** -/
theorem Collects.perm (hperm : members.Perm members') (h : Collects ms members draft last) :
    Collects ms members' draft last := by
  induction hperm generalizing draft with
  | nil => exact h
  | cons e _ ih =>
    rcases h with _ | ⟨hhead, htail⟩
    exact .cons hhead (ih htail)
  | swap e e' members =>
    rcases h with _ | ⟨hhead, _ | ⟨hnext, htail⟩⟩
    obtain ⟨draft'', hnext, hhead⟩ := hhead.comm hind hnext
    exact .cons hnext (.cons hhead htail)
  | trans _ _ ih ih' => exact ih' (ih h)

/-- A member that no key names is there only if it has been before. -/
theorem Collects.given_eq (hm : m ∈ ms) (h : Collects ms members draft last)
    (habsent : ∀ e ∈ members, ¬ Spells e.1 m.name.toList) : m.given last = m.given draft := by
  induction h with
  | nil => rfl
  | cons hhead _ ih =>
    obtain ⟨hnot, habsent⟩ := List.forall_mem_cons.mp habsent
    rw [ih habsent]
    rcases hhead with _ | ⟨hname, hknown, -, hread⟩
    · rfl
    · have hnames := name_of_named? hknown
      refine (hind.apart _ (mem_of_named? hknown) m hm ?_).given _ (changes_of_readsAs hread) _
      rintro heq
      rw [← hnames, heq] at hname
      exact hnot hname

end Independent

/-- **A value says what is taken without it**: a draft that does not have the member makes the same
record with it. -/
def IsDefault (shape : RecordShape α σ) (m : Member σ) (value : List Char) : Prop :=
  ∃ change, m.decoder.ofText.ReadsAs value change ∧
    ∀ draft, m.given draft = false → shape.finish (change draft) = shape.finish draft

/-- A member that is one part of the draft has a default if the part is set to what is taken without
it. -/
theorem isDefault_of {β : Type} {shape : RecordShape α σ} {name : String} {optional : Bool}
    {get : σ → Option β} {set : β → σ → σ} {decoder : Decoder β} {value : List Char} {x : β}
    (hread : decoder.ofText.ReadsAs value x)
    (hfinish : ∀ draft, get draft = none → shape.finish (set x draft) = shape.finish draft) :
    shape.IsDefault (Member.of name optional get set decoder) value :=
  ⟨set x, Reader.readsAs_map set hread, fun draft hnew =>
    hfinish draft (Option.not_isSome_iff_eq_none.mp (Bool.eq_false_iff.mp hnew))⟩

section MadeFrom

variable {shape : RecordShape α σ} (hind : Independent shape.blank ms) {x : α}
  {members' before after : List (List Char × List Char)} {key value value' : List Char}
  {name : String}

/-- **With a value that is read alike** the members make the same record. -/
theorem MadeFrom.replace (hname : Spells key name.toList) (hvalue : ∀ m, named? ms name = some m →
      ∀ change, m.decoder.ofText.ReadsAs value change → m.decoder.ofText.ReadsAs value' change)
    (h : shape.MadeFrom ms (before ++ (key, value) :: after) x) :
    shape.MadeFrom ms (before ++ (key, value') :: after) x := by
  obtain ⟨draft, hcollects, hfinish⟩ := h
  exact ⟨draft, hcollects.replace hname hvalue, hfinish⟩

include hind

/-- **In another order** the members make the same record. -/
theorem MadeFrom.perm (hperm : members.Perm members') (h : shape.MadeFrom ms members x) :
    shape.MadeFrom ms members' x := by
  obtain ⟨draft, hcollects, hfinish⟩ := h
  exact ⟨draft, hcollects.perm hind hperm, hfinish⟩

/-- **With a member that it does not have** a record is made as without. -/
theorem MadeFrom.insert_unknown (hname : Spells key name.toList) (hunknown : named? ms name = none)
    (h : shape.MadeFrom ms (before ++ after) x) :
    shape.MadeFrom ms (before ++ (key, value) :: after) x := by
  obtain ⟨draft, hcollects, hfinish⟩ := h
  have hfront : Collects ms ((key, value) :: (before ++ after)) shape.blank draft :=
    .cons (.skipped hname hunknown) hcollects
  exact ⟨draft, hfront.perm hind List.perm_middle.symm, hfinish⟩

/-- **With a member that says what is taken without it** a record is made as without. -/
theorem MadeFrom.insert_default (hknown : named? ms name = some m)
    (hdefault : shape.IsDefault m value) (hname : Spells key name.toList)
    (habsent : ∀ e ∈ before ++ after, ¬ Spells e.1 name.toList)
    (h : shape.MadeFrom ms (before ++ after) x) :
    shape.MadeFrom ms (before ++ (key, value) :: after) x := by
  obtain ⟨draft, hcollects, hfinish⟩ := h
  obtain ⟨change, hread, hsame⟩ := hdefault
  have hm := mem_of_named? hknown
  have hnew : m.given draft = false := by
    rw [← name_of_named? hknown] at habsent
    exact (hcollects.given_eq hind hm habsent).trans (hind.given_blank m hm)
  have hback : Collects ms ((before ++ after) ++ [(key, value)]) shape.blank (change draft) :=
    collects_append_iff.mpr ⟨draft, hcollects, .cons (.read hname hknown hnew hread) .nil⟩
  refine ⟨change draft, hback.perm hind ?_, (hsame draft hnew).trans hfinish⟩
  exact (List.perm_append_singleton ..).trans List.perm_middle.symm

/-- **Without a member that says what is taken without it** a record is made as with it. -/
theorem MadeFrom.remove_default (hknown : named? ms name = some m)
    (hdefault : shape.IsDefault m value) (hname : Spells key name.toList)
    (h : shape.MadeFrom ms (before ++ (key, value) :: after) x) :
    shape.MadeFrom ms (before ++ after) x := by
  obtain ⟨last, hcollects, hfinish⟩ := h
  obtain ⟨change, hread, hsame⟩ := hdefault
  have hback : Collects ms ((before ++ after) ++ [(key, value)]) shape.blank last :=
    hcollects.perm hind (List.perm_middle.trans (List.perm_append_singleton ..).symm)
  obtain ⟨draft, hcollects, hlast⟩ := collects_append_iff.mp hback
  refine ⟨draft, hcollects, ?_⟩
  -- the member is the last one, and it is read as the default
  rcases hlast with _ | ⟨hlast, _ | _⟩
  rcases hlast with ⟨hname', hunknown⟩ | ⟨hname', hknown', hnew, hread'⟩
  · rw [name_eq_of_spells hname' hname, hknown] at hunknown
    cases hunknown
  · rw [name_eq_of_spells hname' hname, hknown] at hknown'
    obtain rfl := Option.some.inj hknown'
    obtain ⟨rfl, -⟩ := (hread isSpaces_nil []).unique (hread' isSpaces_nil [])
    exact (hsame draft hnew).symm.trans hfinish

end MadeFrom

end RecordShape

end ConfigSchema.Reading
