import ConfigSchema.Proofs.Json.WellFormed
import ConfigSchema.Proofs.Loading.Agreement
import ConfigSchema.Proofs.Reading.LocalRecords
import Mathlib.Logic.Relation

/-!
# The presentation of a schema

A schema can be written down in many ways. The members of an object that describes a field have no
order; there may be others among them, which say nothing to a schema; and a member that says that a
field is not required, is no array or has no fields below it may as well be left out. A text that
differs from another one in such a way, at any level, presents the same schema
(`ConfigSchema.Schema.Represented`), and **loading does not depend on the presentation**: what is
loaded from a text is loaded from every other presentation of it
(`ConfigSchema.Schema.load_of_represented`).

The steps from one presentation to another are said of texts, by the grammar of documents alone:
nothing in them speaks of a reader. That they change nothing for the reader is then shown from
inside out. A step changes the members of one object; what is read of the object is the field that
is made from its members, whatever their layout. The array around the object is read from its
elements, the member around the array from its value, and so on, up to the document. Each of these
goes along since all the readers here are local: what they read of a part does not depend on where
it stands.

One thing is left to see to. A member without fields below it is an array, and for that a level of
nesting is needed. It is there: schemas and fields take turns, so wherever a field is read at all
there is a level for the array.
-/

namespace ConfigSchema

open Reading Json.Grammar

/-! ### Fields and schemas are read locally -/

/-- The members of a field are read locally if its children are. -/
theorem Field.members_isLocal {children : Decoder Schema} (h : children.ofText.IsLocal) :
    ∀ m ∈ Field.members children, m.decoder.ofText.IsLocal := by
  simp only [Field.members, List.forall_mem_cons]
  exact ⟨Decoder.string_isLocal.map _, (Decoder.string_isLocal.map _).map _,
    Decoder.boolean_isLocal.map _, Decoder.boolean_isLocal.map _, h.map _, fun m hm => by cases hm⟩

/-- **Fields and schemas are read locally**, whatever the nesting. -/
theorem field_and_schema_decoder_isLocal (n : Nat) :
    (Field.decoder n).ofText.IsLocal ∧ (Schema.decoder n).ofText.IsLocal := by
  induction n with
  | zero => exact ⟨RecordShape.decoder_none_isLocal, Decoder.list_none_isLocal⟩
  | succ n ih =>
    exact ⟨RecordShape.decoder_isLocal (Field.members_isLocal ih.2), Decoder.list_isLocal ih.1⟩

namespace Field

/-! ### Steps on the members of a field -/

/-- The names of the members that a field has. -/
def memberNames : List String := ["label", "type", "required", "array", "fields"]

/-- **A member of a field says what is taken without it**, by its name and its value. -/
inductive IsDefault : String → List Char → Prop
  /-- The field need not be present. -/
  | required : IsDefault "required" ['f', 'a', 'l', 's', 'e']
  /-- The field holds no list. -/
  | array : IsDefault "array" ['f', 'a', 'l', 's', 'e']
  /-- There are no fields below. -/
  | fields {value : List Char} (empty : IsArray [] value) : IsDefault "fields" value

/-- **A step on the members of an object that describes a field**, each by its key and its value. -/
inductive MembersStep : List (List Char × List Char) → List (List Char × List Char) → Prop
  /-- The members are put into another order. -/
  | permuted {members members' : List (List Char × List Char)} (perm : members.Perm members') :
    MembersStep members members'
  /-- A member is put in that no field has, whatever its value is. Its key has to spell a text: a
  lone surrogate does not, and a document with one in a key is not read at all. -/
  | unknown {before after : List (List Char × List Char)} {key value : List Char} {name : String}
      (spelled : Spells key name.toList) (unknown : name ∉ memberNames) :
    MembersStep (before ++ after) (before ++ (key, value) :: after)
  /-- A member that is not there is put in, and says what is taken without it. -/
  | inserted {before after : List (List Char × List Char)} {key value : List Char} {name : String}
      (spelled : Spells key name.toList) (isDefault : IsDefault name value)
      (absent : ∀ e ∈ before ++ after, ¬ Spells e.1 name.toList) :
    MembersStep (before ++ after) (before ++ (key, value) :: after)
  /-- A member that says what is taken without it is taken out. -/
  | deleted {before after : List (List Char × List Char)} {key value : List Char} {name : String}
      (spelled : Spells key name.toList) (isDefault : IsDefault name value) :
    MembersStep (before ++ (key, value) :: after) (before ++ after)

end Field

/-! ### Steps at any level -/

mutual

/-- **One step from a schema to another presentation of it**: one of its fields is presented in
another way. -/
inductive Schema.Step : List Char → List Char → Prop
  /-- The field stands in the array of the schema. -/
  | field {before after : List (List Char)} {field field' text text' : List Char}
      (array : ArrayOf (before ++ field :: after) text)
      (array' : ArrayOf (before ++ field' :: after) text') (step : Field.Step field field') :
    Schema.Step text text'

/-- **One step from a field to another presentation of it**: on its members, or on the schema below
it. -/
inductive Field.Step : List Char → List Char → Prop
  /-- The members of the object are changed. -/
  | members {members members' : List (List Char × List Char)} {text text' : List Char}
      (object : ObjectOf members text) (object' : ObjectOf members' text')
      (step : Field.MembersStep members members') : Field.Step text text'
  /-- The schema below stands in an object, under its key. -/
  | children {before after : List (List Char × List Char)} {key value value' text text' : List Char}
      (object : ObjectOf (before ++ (key, value) :: after) text)
      (object' : ObjectOf (before ++ (key, value') :: after) text')
      (spelled : Spells key "fields".toList) (step : Schema.Step value value') :
    Field.Step text text'
  /-- The schema below stands in an array, as its last element. -/
  | element {label type required isArray value value' text text' : List Char}
      (array : ArrayOf [label, type, required, isArray, value] text)
      (array' : ArrayOf [label, type, required, isArray, value'] text')
      (step : Schema.Step value value') : Field.Step text text'

end

/-! ### One step changes nothing -/

section Level

open RecordShape

variable {k : Nat}

namespace Field

variable {members members' : List (List Char × List Char)} {name : String} {value : List Char}
  {f : Field}

theorem named?_eq_none_iff {children : Decoder Schema} :
    named? (Field.members children) name = none ↔ name ∉ memberNames := by
  simp only [named?, List.find?_eq_none, Field.members, Member.of, memberNames, List.mem_cons,
    not_or, decide_eq_true_eq]
  simp [eq_comm]

theorem boolean_readsAs_false : Decoder.boolean.ofText.ReadsAs ['f', 'a', 'l', 's', 'e'] false :=
  fun _ hws _ => Decoder.scalar_reads_iff.mpr ⟨.boolean false,
    (lexeme_reads_cons_iff hws rfl rfl).mpr (Reader.reads_iff.mpr rfl), rfl⟩

/-- **A default is one of the record**: if a field is read at all there is a level of nesting for
the array of its children. -/
theorem IsDefault.exists_member (h : IsDefault name value) :
    ∃ m, named? (Field.members (Schema.decoder (2 * k + 1))) name = some m ∧
      Field.shape.IsDefault m value := by
  rcases h with _ | _ | hempty
  · exact ⟨_, rfl, isDefault_of boolean_readsAs_false fun draft hnone => by
      simp [Field.shape, hnone]⟩
  · exact ⟨_, rfl, isDefault_of boolean_readsAs_false fun draft hnone => by
      simp [Field.shape, hnone]⟩
  · have hnil : (Schema.decoder (2 * k + 1)).ofText.ReadsAs value [] := by
      rw [Schema.decoder]
      have hlocal := (field_and_schema_decoder_isLocal (2 * k)).1
      exact (Decoder.list_readsExactly hlocal ⟨hempty, by simp⟩).readsAs_iff.mpr .nil
    exact ⟨_, rfl, isDefault_of hnil fun draft hnone => by simp [Field.shape, hnone]⟩

/-- **A step on the members** makes the same field. -/
theorem MembersStep.madeFrom (h : MembersStep members members')
    (hmade : Field.shape.MadeFrom (Field.members (Schema.decoder (2 * k + 1))) members f) :
    Field.shape.MadeFrom (Field.members (Schema.decoder (2 * k + 1))) members' f := by
  have hind := Field.independent_members (Schema.decoder (2 * k + 1))
  rcases h with hperm | ⟨hname, hunknown⟩ | ⟨hname, hdefault, habsent⟩ | ⟨hname, hdefault⟩
  · exact hmade.perm hind hperm
  · exact hmade.insert_unknown hind hname (named?_eq_none_iff.mpr hunknown)
  · obtain ⟨m, hm, hdefault⟩ := hdefault.exists_member
    exact hmade.insert_default hind hm hdefault hname habsent
  · obtain ⟨m, hm, hdefault⟩ := hdefault.exists_member
    exact hmade.remove_default hind hm hdefault hname

end Field

/-- The member of the children is read as they are. -/
theorem Field.readsAs_of_children {children : Decoder Schema} {value value' : List Char}
    (hlocal : children.ofText.IsLocal) (hvalue : IsValue value)
    (hstep : ∀ schema, children.ofText.ReadsAs value schema →
      children.ofText.ReadsAs value' schema) :
    ∀ m, named? (Field.members children) "fields" = some m → ∀ change,
      m.decoder.ofText.ReadsAs value change → m.decoder.ofText.ReadsAs value' change := by
  intro m hm change hread
  obtain rfl := Option.some.inj hm
  obtain ⟨schema, hschema, rfl⟩ := (hlocal.readsAs_map_iff hvalue).mp hread
  exact Reader.readsAs_map _ (hstep schema hschema)

/-- **A reader respects a step** if it reads from the text behind it what it reads from the text
before. -/
def Reading.Reader.Respects {α : Type} (read : Reader α) (step : List Char → List Char → Prop) :
    Prop :=
  ∀ ⦃text text' x⦄, step text text' → read.ReadsAs text x → read.ReadsAs text' x

/-- Schemas respect steps if fields do, a level below. -/
theorem Schema.decoder_respects {n : Nat} (h : (Field.decoder n).ofText.Respects Field.Step) :
    (Schema.decoder (n + 1)).ofText.Respects Schema.Step := by
  intro text text' schema hstep hread
  obtain ⟨harray, harray', hstep⟩ := hstep
  have hlocal := (field_and_schema_decoder_isLocal n).1
  rw [Schema.decoder] at hread ⊢
  exact Decoder.list_readsAs_replace hlocal harray harray' (fun _ => h hstep) hread

/-- Fields respect steps if schemas do, a level below that has a level itself. -/
theorem Field.decoder_respects (h : (Schema.decoder (2 * k + 1)).ofText.Respects Schema.Step) :
    (Field.decoder (2 * k + 2)).ofText.Respects Field.Step := by
  intro text text' f hstep hread
  have hschema := (field_and_schema_decoder_isLocal (2 * k + 1)).2
  have hms := Field.members_isLocal hschema
  rw [Field.decoder] at hread ⊢
  rcases hstep with ⟨hobject, hobject', hstep⟩ | ⟨hobject, hobject', hname, hstep⟩ |
    ⟨harray, harray', hstep⟩
  · have hmade := (decoder_readsExactly_object hms hobject).readsAs_iff.mp hread
    exact (decoder_readsExactly_object hms hobject').readsAs_iff.mpr (hstep.madeFrom hmade)
  · have hmade := (decoder_readsExactly_object hms hobject).readsAs_iff.mp hread
    have hvalue := hobject.values _ (List.mem_append_right _ List.mem_cons_self)
    refine (decoder_readsExactly_object hms hobject').readsAs_iff.mpr (hmade.replace hname ?_)
    exact Field.readsAs_of_children hschema hvalue fun _ => h hstep
  · obtain ⟨draft, hfills, hfinish⟩ := (decoder_readsExactly_array hms harray).readsAs_iff.mp hread
    obtain ⟨-, -, -, -, hvalue, -⟩ := by simpa only [List.forall_mem_cons] using harray.values
    refine (decoder_readsExactly_array hms harray').readsAs_iff.mpr ⟨draft, ?_, hfinish⟩
    rcases hfills with _ | ⟨hlabel, _ | ⟨htype, _ | ⟨hrequired, _ | ⟨hisArray, _ | ⟨hlast, hnil⟩⟩⟩⟩⟩
    have hlast' := Field.readsAs_of_children hschema hvalue (fun _ => h hstep) _ rfl _ hlast
    exact .read hlabel (.read htype (.read hrequired (.read hisArray (.read hlast' hnil))))

/-- **Fields and schemas respect steps** at any level: what is a field has an even number of levels,
and what is a schema an odd one. -/
theorem field_and_schema_decoder_respect (k : Nat) :
    (Field.decoder (2 * k)).ofText.Respects Field.Step ∧
      (Schema.decoder (2 * k + 1)).ofText.Respects Schema.Step := by
  induction k with
  | zero =>
    have hzero : (Field.decoder 0).ofText.Respects Field.Step := fun _ _ _ _ hread =>
      absurd (hread isSpaces_nil []) not_decoder_none_reads
    exact ⟨hzero, Schema.decoder_respects hzero⟩
  | succ k ih =>
    have hfield := Field.decoder_respects ih.2
    exact ⟨hfield, Schema.decoder_respects hfield⟩

end Level

/-! ### Documents -/

/-- **A document that is a value** with spaces around it is loaded as the value is read. -/
theorem Reading.Decoder.load_string_iff_readsAs {α : Type} {decoder : Decoder α}
    (hlocal : decoder.ofText.IsLocal) {before value after : List Char} (hvalue : IsValue value)
    (hbefore : IsSpaces before) (hafter : IsSpaces after) {x : α} :
    decoder.load (.string (String.ofList (before ++ value ++ after))) = .ok x ↔
      decoder.ofText.ReadsAs value x := by
  rw [Decoder.load_string_eq_ok_iff, ofString_ofList, symbols_append, symbols_append,
    List.append_assoc]
  simp only [hlocal.reads_iff hvalue hbefore]
  constructor
  · rintro ⟨r, ⟨-, hread⟩, -⟩
    exact hread
  · intro hread
    exact ⟨symbols after, ⟨rfl, hread⟩, next?_spaces hafter⟩

namespace Schema

theorem Step.isValue {text text' : List Char} (h : Schema.Step text text') :
    IsValue text ∧ IsValue text' := by
  obtain ⟨harray, harray', -⟩ := h
  exact ⟨harray.isValue, harray'.isValue⟩

/-- **One step from a text to another presentation** of the schema in it. -/
inductive TextStep : String → String → Prop
  /-- The schema has spaces around it. -/
  | mk {before value after before' value' after' : List Char} (spacesBefore : IsSpaces before)
      (spacesAfter : IsSpaces after) (spacesBefore' : IsSpaces before')
      (spacesAfter' : IsSpaces after') (step : Schema.Step value value') :
    TextStep (String.ofList (before ++ value ++ after))
      (String.ofList (before' ++ value' ++ after'))

/-- **Another presentation of a text**, by any number of steps. -/
abbrev Represented : String → String → Prop := Relation.ReflTransGen TextStep

variable {text text' : String} {schema : Schema}

theorem load_of_textStep (h : TextStep text text')
    (hload : Schema.document.load (.string text) = .ok schema) :
    Schema.document.load (.string text') = .ok schema := by
  obtain ⟨hbefore, hafter, hbefore', hafter', hstep⟩ := h
  obtain ⟨hvalue, hvalue'⟩ := hstep.isValue
  have hlocal := (field_and_schema_decoder_isLocal maxNesting).2
  have hread := (Decoder.load_string_iff_readsAs hlocal hvalue hbefore hafter).mp hload
  -- the number of levels is odd, as it is for every schema in the document
  have hread' := (field_and_schema_decoder_respect 63).2 hstep hread
  exact (Decoder.load_string_iff_readsAs hlocal hvalue' hbefore' hafter').mpr hread'

/-- **Loading does not depend on the presentation**: whatever a text is loaded as, every other
presentation of it is loaded as the same schema. -/
theorem load_of_represented (h : Represented text text')
    (hload : Schema.document.load (.string text) = .ok schema) :
    Schema.document.load (.string text') = .ok schema := by
  induction h with
  | refl => exact hload
  | tail _ hstep ih => exact load_of_textStep hstep ih

/-- A key that spells no text makes loading fail, although its member says nothing to a schema. -/
example :
    Schema.document.load (.string "[\x7b\"label\":\"a\",\"type\":\"int\"\x7d]") =
        .ok [⟨"a", .int, false, false, []⟩] ∧
      Schema.document.load
          (.string "[\x7b\"\\ud800\":0,\"label\":\"a\",\"type\":\"int\"\x7d]") =
        .error (.inText .missingSurrogate) := by
  decide +kernel

section Nested

open Json

/-- The members of a field `b`. -/
def membersOfB : List (String × Written) := [("label", .string "b"), ("type", .string "int")]

/-- The members of a field `a` with a field below it, by the members of that. -/
def membersOfA (below : List (String × Written)) : List (String × Written) :=
  [("label", .string "a"), ("type", .string "object"), ("fields", .array [.object below])]

/-- A member that no field has, with a value that repeats a key. -/
def hintMember : String × Written := ("hint", .object [("x", .array []), ("x", .boolean true)])

/-- The text of a schema with a single field, by its members. -/
def textOf (members : List (String × Written)) : String :=
  String.ofList (Written.array [.object members]).text

theorem arrayOf_singleton (w : Written) : ArrayOf ([] ++ w.text :: []) (Written.array [w]).text :=
  Written.arrayOf_text [w]

theorem textStep_textOf {members members' : List (String × Written)}
    (h : Field.Step (Written.object members).text (Written.object members').text) :
    TextStep (textOf members) (textOf members') := by
  have hstep := TextStep.mk isSpaces_nil isSpaces_nil isSpaces_nil isSpaces_nil
    (.field (arrayOf_singleton _) (arrayOf_singleton _) h)
  simp only [List.nil_append, List.append_nil] at hstep
  exact hstep

/-- Two steps: the members of the field below change places, and then a member is put in before
those of the field above. -/
theorem represented_nested :
    Represented (textOf (membersOfA membersOfB))
      (textOf (hintMember :: membersOfA membersOfB.reverse)) := by
  have hbelow : Field.Step (Written.object membersOfB).text
      (Written.object membersOfB.reverse).text :=
    .members (Written.objectOf_text _) (Written.objectOf_text _)
      (.permuted ((List.reverse_perm _).symm.map _))
  have hobject : ∀ below, ObjectOf
      ([(_, _), (_, _)] ++ (_, (Written.array [.object below]).text) :: [])
      (Written.object (membersOfA below)).text :=
    fun below => Written.objectOf_text (membersOfA below)
  have hfirst : Field.Step (Written.object (membersOfA membersOfB)).text
      (Written.object (membersOfA membersOfB.reverse)).text :=
    .children (hobject membersOfB) (hobject membersOfB.reverse) (spells_escaped _)
      (.field (arrayOf_singleton _) (arrayOf_singleton _) hbelow)
  have hhint : ∀ members, Field.MembersStep ([] ++ members)
      ([] ++ (hintMember.1.toList.flatMap escapeChar, hintMember.2.text) :: members) :=
    fun _ => .unknown (spells_escaped _) (by decide)
  have hsecond : Field.Step (Written.object (membersOfA membersOfB.reverse)).text
      (Written.object (hintMember :: membersOfA membersOfB.reverse)).text :=
    .members (Written.objectOf_text _) (Written.objectOf_text _) (hhint _)
  exact (Relation.ReflTransGen.single (textStep_textOf hfirst)).tail (textStep_textOf hsecond)

/-- The two texts are loaded as the same schema. -/
theorem load_of_represented_nested :
    let schema := [⟨"a", .object, false, false, [⟨"b", .int, false, false, []⟩]⟩]
    Represented (textOf (membersOfA membersOfB))
        (textOf (hintMember :: membersOfA membersOfB.reverse)) ∧
      Schema.document.load (.string (textOf (membersOfA membersOfB))) = .ok schema ∧
      Schema.document.load (.string (textOf (hintMember :: membersOfA membersOfB.reverse))) =
        .ok schema := by
  have hload : Schema.document.load (.string (textOf (membersOfA membersOfB))) =
      .ok [⟨"a", .object, false, false, [⟨"b", .int, false, false, []⟩]⟩] := by
    decide +kernel
  exact ⟨represented_nested, hload, load_of_represented represented_nested hload⟩

example : textOf (hintMember :: membersOfA membersOfB.reverse) =
    "[\x7b\"hint\":\x7b\"x\":[],\"x\":true\x7d,\"label\":\"a\",\"type\":\"object\"," ++
      "\"fields\":[\x7b\"type\":\"int\",\"label\":\"b\"\x7d]\x7d]" := by
  decide

end Nested

end Schema

end ConfigSchema
