import ConfigSchema.Loading
import ConfigSchema.Proofs.Reading.Bytes
import ConfigSchema.Proofs.Reading.RecordAgreement
import Mathlib

/-!
# The loaders agree

A document is loaded from a string in one pass, from a file in one pass, or from a string by way
of a tree. Here the three are compared on every text, well-formed or not
(`ConfigSchema.Reading.Decoder.LoadersAgree`): the two ways to load a string never give different
values; what is loaded by way of the tree is loaded in one pass, too, if no object of the text
repeats a key (`ConfigSchema.Reading.DistinctKeys`); and a file that holds the text is loaded as
the text is.

All decoders of the library are put together from scalars, lists and records, for which the two
ways of reading agree, and from the decoder of kinds, which is shown to be one of this sort here
(`ConfigSchema.Definition.Kind.decoder_agrees`).
-/

namespace ConfigSchema

open Reading Json

/-! ### Kinds -/

namespace Definition.Kind

variable {n : Nat} {s r : Input} {kind : Definition.Kind} {name : String}

theorem nameAsKey_reads_iff :
    nameAsKey.Reads s name r ↔ ∃ t, Begins s (.char '"') t ∧ Reading.string.Reads t name r := by
  rw [Reader.reads_iff, nameAsKey]
  constructor
  · intro h
    split at h
    · cases h
    next x t b hnext =>
    split at h
    · next hquote =>
      exact ⟨t, ⟨b, hquote ▸ hnext⟩, reads_of_keep h fun _ => rfl⟩
    · split at h <;> cases h
  · rintro ⟨t, ⟨b, hquote⟩, hname⟩
    rw [hquote]
    dsimp only
    rw [if_pos rfl]
    exact hname.keep fun _ => rfl

/-- A kind is read from its name, or from an object with the name for its only key. -/
theorem ofText_reads_iff :
    ofText.Reads s kind r ↔ ∃ name, named name = .ok kind ∧
      (lexeme.Reads s (.string name) r ∨
        ∃ s₁ s₂ s₃ s₄ s₅, lexeme.Reads s .object s₁ ∧ Begins s₁ (.char '"') s₂ ∧
          Reading.string.Reads s₂ name s₃ ∧ Begins s₃ (.char ':') s₄ ∧
          Decoder.unit.ofText.Reads s₄ () s₅ ∧ Begins s₅ (.char '\x7d') r) := by
  rw [Reader.reads_iff, ofText]
  simp only [lexeme_string_reads_iff, lexeme_object_reads_iff]
  constructor
  · intro h
    split at h
    · cases h
    next x t b hnext =>
    split at h
    · next hquote =>
      obtain ⟨name, r', hname, _, h⟩ := map_pair_bind_eq_ok_iff.mp h
      obtain ⟨kind', hkind, h⟩ := map_pair_judge_eq_ok_iff.mp h
      obtain ⟨rfl, rfl⟩ := map_pair_pure_eq_ok_iff.mp h
      exact ⟨name, hkind, Or.inl ⟨t, ⟨b, hquote ▸ hnext⟩, hname⟩⟩
    split at h
    · next hbrace =>
      obtain ⟨name, s₃, hname, _, h⟩ := map_pair_bind_eq_ok_iff.mp h
      obtain ⟨kind', hkind, h⟩ := map_pair_judge_eq_ok_iff.mp h
      obtain ⟨⟨⟩, s₄, hcolon, _, h⟩ := map_pair_bind_eq_ok_iff.mp h
      obtain ⟨⟨⟩, s₅, hunit, _, h⟩ := map_pair_bind_eq_ok_iff.mp h
      obtain ⟨⟨⟩, r', hclose, _, h⟩ := map_pair_bind_eq_ok_iff.mp h
      obtain ⟨rfl, rfl⟩ := map_pair_pure_eq_ok_iff.mp h
      obtain ⟨s₂, hquote, hname⟩ := nameAsKey_reads_iff.mp hname
      exact ⟨name, hkind, Or.inr ⟨t, s₂, s₃, s₄, s₅, ⟨b, hbrace ▸ hnext⟩, hquote, hname,
        colon_reads_iff.mp hcolon, hunit, expectSymbol_reads_iff.mp hclose⟩⟩
    · cases h
  · rintro ⟨name, hkind, ⟨t, ⟨b, hquote⟩, hname⟩ |
      ⟨s₁, s₂, s₃, s₄, s₅, ⟨b, hbrace⟩, hquote, hname, hcolon, hunit, hclose⟩⟩
    · rw [hquote]
      dsimp only
      rw [if_pos rfl]
      exact hname.bind fun _ => map_pair_judge_eq_ok_iff.mpr ⟨kind, hkind, rfl⟩
    · have hname := nameAsKey_reads_iff.mpr ⟨s₂, hquote, hname⟩
      have hcolon := colon_reads_iff.mpr hcolon
      have hclose : (expectSymbol '\x7d' .endInObject .expectedValue).Reads s₅ () r :=
        expectSymbol_reads_iff.mpr hclose
      rw [hbrace]
      dsimp only
      rw [if_neg (by decide), if_pos rfl]
      exact hname.bind fun _ => map_pair_judge_eq_ok_iff.mpr
        ⟨kind, hkind, hcolon.bind fun _ => hunit.bind fun _ => hclose.bind fun _ => rfl⟩

/-- An object with a single member has a single member in its text, if no key is repeated. -/
theorem eq_singleton_of_lastEntries {members : List (String × Parsed)} {value : Tree}
    (hnodup : (members.map Prod.fst).Nodup)
    (h : Parsed.lastEntries members = [(name, value)]) :
    ∃ w : Parsed, members = [(name, w)] ∧ w.tree = value := by
  have hkeys : (members.map fun m => (m.1, m.2.tree)).map Prod.fst = members.map Prod.fst := by
    rw [List.map_map]
    rfl
  have hperm := Keyed.ofList_perm (hkeys ▸ hnodup)
  rw [← Parsed.lastEntries, h] at hperm
  have heq := List.singleton_perm.mp hperm
  cases members with
  | nil => cases heq
  | cons m members =>
    obtain ⟨hm, hmembers⟩ := List.cons.inj heq
    obtain ⟨rfl, rfl⟩ := Prod.mk.inj hm
    obtain rfl := List.map_eq_nil_iff.mp hmembers.symm
    exact ⟨m.2, rfl, rfl⟩

/-- From the tree of an object a kind is read only if there is a single member. -/
theorem exists_of_ofTree_object {entries : List (String × Tree)}
    (h : ofTree (.object entries) = .ok kind) :
    ∃ name value, entries = [(name, value)] ∧ named name = .ok kind ∧
      Decoder.unit.ofTree value = .ok () := by
  rcases entries with _ | ⟨⟨name, value⟩, _ | ⟨entry, entries⟩⟩
  · cases h
  · obtain ⟨kind', hkind, h⟩ := Outcome.bind_eq_ok_iff.mp h
    obtain ⟨⟨⟩, hunit, h⟩ := Outcome.bind_eq_ok_iff.mp h
    obtain rfl := Except.ok.inj h
    exact ⟨name, value, rfl, hkind, hunit⟩
  · cases h

/-- An object whose text has one key with a null value behind it, and then ends, has no other
member. -/
theorem eq_singleton_of_membersRead {members : List (String × Parsed)} {s₁ s₂ s₃ s₄ r' : Input}
    (hmembers : MembersRead (parsed n) true s members r) (hquote : Begins s (.char '"') s₁)
    (hname : Reading.string.Reads s₁ name s₂) (hcolon : Begins s₂ (.char ':') s₃)
    (hunit : Decoder.unit.ofText.Reads s₃ () s₄) (hclose : Begins s₄ (.char '\x7d') r') :
    r' = r ∧ ∃ w, members = [(name, w)] := by
  cases hmembers with
  | nil hclose' => cases (hquote.unique hclose').1
  | cons hquoted hcolon' hvalue htail =>
    obtain ⟨t, u, hsep, hquote', hkey⟩ := hquoted
    cases hsep
    obtain ⟨-, rfl⟩ := hquote.unique hquote'
    obtain ⟨rfl, rfl⟩ := hname.unique hkey
    obtain ⟨-, rfl⟩ := hcolon.unique hcolon'
    obtain ⟨rfl, -⟩ := Decoder.unit_agrees.sound hvalue hunit
    cases htail with
    | cons hquoted =>
      obtain ⟨t, u, hsep, hquote', -⟩ := hquoted
      exact absurd hclose (hsep.not_begins hquote' (by decide) (by decide))
    | nil hclose' => exact ⟨(hclose.unique hclose').2, _, rfl⟩

/-- An object with a single member has one key with a value behind it in its text, and then
ends. -/
theorem exists_of_membersRead_singleton {w : Parsed}
    (h : MembersRead (parsed n) true s [(name, w)] r) :
    ∃ s₁ s₂ s₃ s₄, Begins s (.char '"') s₁ ∧ Reading.string.Reads s₁ name s₂ ∧
      Begins s₂ (.char ':') s₃ ∧ (parsed n).Reads s₃ w s₄ ∧ Begins s₄ (.char '\x7d') r := by
  cases h with
  | cons hquoted hcolon hvalue htail =>
    obtain ⟨t, u, hsep, hquote, hkey⟩ := hquoted
    cases hsep
    cases htail with
    | nil hclose => exact ⟨_, _, _, _, hquote, hkey, hcolon, hvalue, hclose⟩

/-- **The decoder of kinds agrees**, whatever the nesting. -/
theorem decoder_agrees : decoder.Agrees n := by
  constructor
  · intro s r r' w kind hw hx
    obtain ⟨name, hkind, hstring | hobject⟩ := ofText_reads_iff.mp hx
    · obtain ⟨rfl, rfl⟩ := (valueRead_of_parsed hw).eq_string hstring
      exact ⟨rfl, fun y hy => Except.ok.inj (hy.symm.trans hkind)⟩
    · obtain ⟨s₁, s₂, s₃, s₄, s₅, hhead, hquote, hname, hcolon, hunit, hclose⟩ := hobject
      obtain ⟨k, members, -, rfl, hmembers⟩ := (valueRead_of_parsed hw).exists_members hhead
      -- the only member is the name, with a null value
      obtain ⟨rfl, w, rfl⟩ :=
        eq_singleton_of_membersRead hmembers hquote hname hcolon hunit hclose
      refine ⟨rfl, fun y hy => ?_⟩
      rw [Parsed.tree_object] at hy
      have hy : ofTree (.object (Parsed.lastEntries [(name, w)])) = .ok y := hy
      obtain ⟨name', value, hentries, hkind', -⟩ := exists_of_ofTree_object hy
      obtain ⟨rfl, -⟩ := Prod.mk.inj (List.cons.inj hentries).1
      exact Except.ok.inj (hkind'.symm.trans hkind)
  · intro s r w kind hw hdistinct hx
    cases valueRead_of_parsed hw with
    | scalar hscalar hhead =>
      cases w with
      | string text => exact ofText_reads_iff.mpr ⟨text, hx, Or.inl hhead⟩
      | array => cases hscalar
      | object => cases hscalar
      | _ => cases hx
    | array => cases hx
    | object hhead hmembers =>
      obtain ⟨hnodup, hvalues⟩ := Parsed.distinct_object_iff.mp hdistinct
      rw [Parsed.tree_object] at hx
      obtain ⟨name, value, hentries, hkind, hunit⟩ := exists_of_ofTree_object hx
      obtain ⟨w, rfl, rfl⟩ := eq_singleton_of_lastEntries hnodup hentries
      obtain ⟨s₂, s₃, s₄, s₅, hquote, hname, hcolon, hvalue, hclose⟩ :=
        exists_of_membersRead_singleton hmembers
      have hunit := Decoder.unit_agrees.complete hvalue
        (hvalues _ (List.mem_singleton_self _)) hunit
      exact ofText_reads_iff.mpr ⟨name, hkind, Or.inr ⟨_, s₂, s₃, s₄, s₅, hhead, hquote, hname,
        hcolon, hunit, hclose⟩⟩

end Definition.Kind

/-! ### Records and lists of the library -/

/-- The members of a field are independent: each of them is one part of the draft. -/
theorem Field.independent_members (children : Decoder Schema) :
    Independent Field.shape.blank (Field.members children) where
  given_blank := by simp [Field.members, Field.shape, Member.of]
  given_own := by
    simp only [Field.members, List.forall_mem_cons]
    exact ⟨Member.given_of fun _ _ => rfl, Member.given_of fun _ _ => rfl,
      Member.given_of fun _ _ => rfl, Member.given_of fun _ _ => rfl,
      Member.given_of fun _ _ => rfl, fun m hm => by cases hm⟩
  apart := by
    intro m hm m' hm' hne
    simp only [Field.members, List.mem_cons, List.not_mem_nil, or_false] at hm hm'
    rcases hm with rfl | rfl | rfl | rfl | rfl <;> rcases hm' with rfl | rfl | rfl | rfl | rfl
    all_goals first
      | exact absurd rfl hne
      | exact Member.apart_of (fun _ _ => rfl) fun _ _ _ => rfl

/-- The members of a definition are independent: each of them is one part of the draft. -/
theorem Definition.independent_members (schema : Decoder Schema) :
    Independent Definition.shape.blank (Definition.members schema) where
  given_blank := by simp [Definition.members, Definition.shape, Member.of]
  given_own := by
    simp only [Definition.members, List.forall_mem_cons]
    exact ⟨Member.given_of fun _ _ => rfl, Member.given_of fun _ _ => rfl,
      Member.given_of fun _ _ => rfl, Member.given_of fun _ _ => rfl, fun m hm => by cases hm⟩
  apart := by
    intro m hm m' hm' hne
    simp only [Definition.members, List.mem_cons, List.not_mem_nil, or_false] at hm hm'
    rcases hm with rfl | rfl | rfl | rfl <;> rcases hm' with rfl | rfl | rfl | rfl
    all_goals first
      | exact absurd rfl hne
      | exact Member.apart_of (fun _ _ => rfl) fun _ _ _ => rfl

/-- Fields and schemas agree at every nesting: each is a level of its own. -/
theorem field_and_schema_decoder_agree (n : Nat) :
    (Field.decoder n).Agrees n ∧ (Schema.decoder n).Agrees n := by
  induction n with
  | zero => exact ⟨RecordShape.decoder_none_agrees, Decoder.list_none_agrees⟩
  | succ n ih =>
    refine ⟨RecordShape.decoder_agrees (Field.independent_members _) ?_, Decoder.list_agrees ih.1⟩
    simp only [Field.members, List.forall_mem_cons]
    exact ⟨Decoder.string_agrees.map _, (Decoder.string_agrees.map _).map _,
      Decoder.boolean_agrees.map _, Decoder.boolean_agrees.map _, ih.2.map _,
      fun m hm => by cases hm⟩

theorem Definition.decoder_agrees (n : Nat) : (Definition.decoder n).Agrees n := by
  cases n with
  | zero => exact RecordShape.decoder_none_agrees
  | succ n =>
    refine RecordShape.decoder_agrees (Definition.independent_members _) ?_
    simp only [Definition.members, List.forall_mem_cons]
    exact ⟨Decoder.string_agrees.map _, Decoder.string_agrees.map _,
      Definition.Kind.decoder_agrees.map _, (field_and_schema_decoder_agree n).2.map _,
      fun m hm => by cases hm⟩

theorem EngineConfig.decoder_agrees {n : Nat} : EngineConfig.decoder.Agrees (n + 1) := by
  refine RecordShape.decoder_agrees ⟨?_, ?_, ?_⟩ ?_
  · simp [EngineConfig.shape, Member.of]
  · simp only [List.forall_mem_singleton]
    exact Member.given_of fun _ _ => rfl
  · simp only [List.forall_mem_singleton]
    exact fun hne => absurd rfl hne
  · simp only [List.forall_mem_singleton]
    exact Decoder.int32_agrees.map _

/-! ### Documents -/

namespace Reading

/-- **No object of a text repeats a key**: the text is a document, all members of which are
kept, and in none of its objects two of them have one key. -/
def DistinctKeys (text : String) : Prop :=
  ∃ w, readAll (parsed maxNesting) (.ofString text) = .ok w ∧ w.Distinct

/-- **The loaders agree** on a text. -/
structure Decoder.LoadersAgree {α : Type} (decoder : Decoder α) (text : String) : Prop where
  /-- Read in one pass and by way of a tree, a text never has two values. -/
  eq : ∀ x y, decoder.load (.string text) = .ok x → decoder.load (.tree text) = .ok y → x = y
  /-- If the text repeats no key, what is read by way of a tree is read in one pass. -/
  string_of_tree : DistinctKeys text → ∀ x, decoder.load (.tree text) = .ok x →
    decoder.load (.string text) = .ok x
  /-- A file that holds the text is read as the text is. -/
  file_iff : ∀ x, decoder.load (.file (.contents text.toUTF8.data.toList)) = .ok x ↔
    decoder.load (.string text) = .ok x

namespace Decoder

variable {α : Type} {decoder : Decoder α} {text : String} {x : α}

theorem load_string_eq_ok_iff :
    decoder.load (.string text) = .ok x ↔
      ∃ r, decoder.ofText.Reads (.ofString text) x r ∧ r.next? = none := by
  show (decoder.read (.ofString text)).mapError _ = _ ↔ _
  rw [Outcome.mapError_eq_ok_iff, read, readAll_eq_ok_iff]

/-- The tree of a text is that of its document. -/
theorem load_tree_eq_ok_iff :
    decoder.load (.tree text) = .ok x ↔
      ∃ w r, (parsed maxNesting).Reads (.ofString text) w r ∧ r.next? = none ∧
        decoder.ofTree w.tree = .ok x := by
  show (decoder.readByTree (.ofString text)).mapError _ = _ ↔ _
  rw [Outcome.mapError_eq_ok_iff, readByTree, Outcome.bind_eq_ok_iff]
  simp only [readTree, readAll_eq_ok_iff, tree_eq_map_parsed, Reader.reads_map_iff]
  constructor
  · rintro ⟨j, ⟨r, ⟨w, hw, rfl⟩, hend⟩, hx⟩
    exact ⟨w, r, hw, hend, hx⟩
  · rintro ⟨w, r, hw, hend, hx⟩
    exact ⟨w.tree, ⟨r, ⟨w, hw, rfl⟩, hend⟩, hx⟩

/-- Decoders that agree have loaders that do, on every text. -/
theorem Agrees.loadersAgree (h : decoder.Agrees maxNesting) (text : String) :
    decoder.LoadersAgree text := by
  constructor
  · intro x y hx hy
    obtain ⟨r, hx, -⟩ := load_string_eq_ok_iff.mp hx
    obtain ⟨w, r', hw, -, hy⟩ := load_tree_eq_ok_iff.mp hy
    exact ((h.sound hw hx).2 y hy).symm
  · rintro ⟨w, hw, hdistinct⟩ x hx
    obtain ⟨r, hw, -⟩ := readAll_eq_ok_iff.mp hw
    obtain ⟨w', r', hw', hend, hx⟩ := load_tree_eq_ok_iff.mp hx
    obtain ⟨rfl, rfl⟩ := hw.unique hw'
    exact load_string_eq_ok_iff.mpr ⟨r, h.complete hw hdistinct hx, hend⟩
  · intro x
    show (decoder.read (.ofBytes text.toUTF8.data.toList)).mapError _ = _ ↔
      (decoder.read (.ofString text)).mapError _ = _
    rw [Input.ofBytes_toUTF8, Outcome.mapError_eq_ok_iff, Outcome.mapError_eq_ok_iff]

end Decoder

end Reading

/-- **The loaders agree** on every text, whatever is loaded: the settings, a schema, a field, a
definition or a kind. -/
theorem loaders_agree (text : String) :
    EngineConfig.decoder.LoadersAgree text ∧ Schema.document.LoadersAgree text ∧
      Field.document.LoadersAgree text ∧ Definition.document.LoadersAgree text ∧
        Definition.Kind.decoder.LoadersAgree text := by
  obtain ⟨hfield, hschema⟩ := field_and_schema_decoder_agree maxNesting
  exact ⟨EngineConfig.decoder_agrees.loadersAgree text, hschema.loadersAgree text,
    hfield.loadersAgree text, (Definition.decoder_agrees maxNesting).loadersAgree text,
    Definition.Kind.decoder_agrees.loadersAgree text⟩

/-- A field whose members stand in another order, with one between them that a field does not
have. -/
def Field.textWithTypeFirst : String :=
  "\x7b\"type\": \"int\", \"hint\": [null, true], \"label\": \"size\"\x7d"

/-- It repeats no key and is read by way of its tree, and therefore in one pass. -/
theorem loaders_agree_reordered :
    DistinctKeys Field.textWithTypeFirst ∧
      Field.document.load (.tree Field.textWithTypeFirst) =
        .ok ⟨"size", .int, false, false, []⟩ ∧
      Field.document.load (.string Field.textWithTypeFirst) =
        .ok ⟨"size", .int, false, false, []⟩ := by
  have hw : readAll (parsed maxNesting) (.ofString Field.textWithTypeFirst) = .ok (.object
      [("type", .string "int"), ("hint", .array [.null, .boolean true]),
        ("label", .string "size")]) := by
    cbv
  have hdistinct : DistinctKeys Field.textWithTypeFirst := by
    refine ⟨_, hw, .object (by decide) ?_⟩
    simp only [List.forall_mem_cons]
    refine ⟨.scalar rfl, .array ?_, .scalar rfl, fun m hm => by cases hm⟩
    simp only [List.forall_mem_cons]
    exact ⟨.scalar rfl, .scalar rfl, fun w hw => by cases hw⟩
  have htree : Field.document.load (.tree Field.textWithTypeFirst) =
      .ok ⟨"size", .int, false, false, []⟩ := by
    cbv
  obtain ⟨-, -, hagree, -⟩ := loaders_agree Field.textWithTypeFirst
  exact ⟨hdistinct, htree, hagree.string_of_tree hdistinct _ htree⟩

/-- Where a key is repeated, one pass stops at the key, and the tree has forgotten about it. -/
example :
    Field.document.load (.string "\x7b\"label\": \"a\", \"label\": \"b\", \"type\": \"int\"\x7d") =
        .error (.inText (.duplicateField "label")) ∧
      Field.document.load (.tree "\x7b\"label\": \"a\", \"label\": \"b\", \"type\": \"int\"\x7d") =
        .ok ⟨"b", .int, false, false, []⟩ := by
  constructor <;> cbv

end ConfigSchema
