import ConfigSchema.Proofs.Definition.Checked
import ConfigSchema.Proofs.Loading.Ways
import ConfigSchema.Proofs.Schema.Names
import ConfigSchema.Proofs.Schema.RoundTrip

/-!
# Definitions are loaded as they are made

There are two ways to a definition: it is made from a name, the name of a kind and a schema, or
it is loaded from a text that gives the same, and an identifier. Both accept the same
(`ConfigSchema.Definition.load_jsonText`), once it is taken into account that a text knows
types by their names alone; and where the schema is turned down both say the same, unless a
name in it looks like a position.

A definition that has been made under a high ceiling is written like any other, but is turned
down when it is loaded again if its schema is deeper than the default ceiling: this is the only
thing that can happen to it, given that its text is not nested too deep for a reader.
-/

namespace ConfigSchema.Definition

open Reading

/-! ### Written definitions -/

/-- The JSON text that gives the members of a definition. -/
def jsonText (id name kindName : String) (schema : Schema) : String :=
  String.ofList (Json.writeObject
    [Json.writeMember "id" (Json.writeString id),
      Json.writeMember "name" (Json.writeString name),
      Json.writeMember "type" (Json.writeString kindName),
      Json.writeMember "configuration_schema" (Schema.write schema)])

/-- The members of a definition as a written document. -/
def written (id name kindName : String) (schema : Schema) : Json.Written :=
  .object [("id", .string id), ("name", .string name), ("type", .string kindName),
    ("configuration_schema", Schema.written schema)]

theorem jsonText_eq_text (id name kindName : String) (schema : Schema) :
    jsonText id name kindName schema = String.ofList (written id name kindName schema).text := by
  rw [jsonText, written, Json.Written.text_object, Schema.write_eq_text]
  rfl

theorem nesting_written (id name kindName : String) (schema : Schema) :
    (written id name kindName schema).nesting = (Schema.written schema).nesting + 1 := by
  rw [written, Json.Written.nesting_object]
  show max 0 (max 0 (max 0 (max _ 0))) + 1 = _
  simp only [Nat.zero_max, Nat.max_zero]

/-- The brackets of a definition are those of its schema and one pair more. -/
theorem nesting_jsonText (id name kindName : String) (schema : Schema) :
    Json.nesting (jsonText id name kindName schema).toList =
      (Schema.written schema).nesting + 1 := by
  rw [jsonText_eq_text, String.toList_ofList, Json.nesting_text, nesting_written]

/-! ### Answers -/

/-- What becomes of the members of a definition once they are read. -/
def ofMembers (id name kindName : String) (schema : Schema) : Except Fault Definition := do
  let kind ← Kind.named kindName
  shape.finish ⟨some id, some name, some kind, some schema⟩

theorem Kind.decoder_answers (kindName : String) :
    Kind.decoder.Answers (.string kindName) (Kind.named kindName) := by
  refine ⟨fun rest => ?_, rfl⟩
  show (Kind.ofText (symbols (Json.writeString kindName) ++ rest)).map Taken.pair = _
  rw [Json.writeString, symbols_cons, List.cons_append, Kind.ofText, next?_cons (by decide)]
  dsimp only
  rw [if_pos rfl]
  refine map_pair_bind_ok (Reading.string_answers kindName rest) fun _ => ?_
  cases Kind.named kindName <;> rfl

/-- The keys of a definition in their order. -/
theorem ofList_members (i n t c : Json.Tree) :
    Keyed.ofList [("id", i), ("name", n), ("type", t), ("configuration_schema", c)] =
      [("configuration_schema", c), ("id", i), ("name", n), ("type", t)] := by
  simp only [Keyed.ofList, Keyed.insert, List.foldl_cons, List.foldl_nil, String.reduceLT,
    String.reduceEq, if_true, if_false]

section Answers

variable (id name kindName : String) (schema : Schema)

/-- The identifier, as it is written. -/
def givenId : Given Draft := .of "id" (.string id) (fun x d => { d with id := some x }) (.ok id)

/-- The name, as it is written. -/
def givenName : Given Draft :=
  .of "name" (.string name) (fun x d => { d with name := some x }) (.ok name)

/-- The name of the kind, as it is written. -/
def givenKind : Given Draft :=
  .of "type" (.string kindName) (fun x d => { d with kind := some x }) (Kind.named kindName)

/-- The schema, as it is written, with what is answered to it. -/
def givenSchema (answer : Except Fault Schema) : Given Draft :=
  .of "configuration_schema" (Schema.written schema) (fun x d => { d with schema := some x })
    answer

/-- **A written definition** is answered with what becomes of its members, and its schema is
read as the recognised one. -/
theorem decoder_answers {n : Nat} (hn : (Schema.written schema).nesting ≤ n) :
    (Definition.decoder (n + 1)).Answers (written id name kindName schema)
      (ofMembers id name kindName (Schema.recognized schema)) := by
  have hschema := Schema.decoder_answers schema n
  rw [within_of_le hn] at hschema
  have hgiven : ∀ g ∈ [givenId id, givenName name, givenKind kindName,
      givenSchema schema (.ok (Schema.recognized schema))],
      g.Answered (members (Schema.decoder n)) := by
    simp only [List.forall_mem_cons, List.not_mem_nil, false_imp_iff, implies_true, and_true]
    exact ⟨Given.answered_of rfl (Decoder.string_answers id),
      Given.answered_of rfl (Decoder.string_answers name),
      Given.answered_of rfl (Kind.decoder_answers kindName), Given.answered_of rfl hschema⟩
  have hrecord := shape.decoder_answers
    [givenSchema schema (.ok (Schema.recognized schema)), givenId id, givenName name,
      givenKind kindName]
    ((Kind.named kindName).map fun kind =>
      ⟨some id, some name, some kind, some (Schema.recognized schema)⟩)
    hgiven (by simp) (ofList_members ..)
    -- the name of the kind is the only member that can be at fault
    (by rw [givenKind]; cases Kind.named kindName <;> rfl)
    (by rw [givenKind]; cases Kind.named kindName <;> rfl)
  rw [ofMembers]
  cases hkind : Kind.named kindName <;> rw [hkind] at hrecord <;> exact hrecord

end Answers

/-! ### Acceptance and refusal -/

section Made

variable {id name kindName : String} {schema : Schema}

/-- **The members of a definition are accepted** exactly if the definition can be made of
them. -/
theorem ofMembers_eq_ok_iff {definition : Definition} :
    ofMembers id name kindName schema = .ok definition ↔
      ∃ made, create name kindName schema = .ok made ∧ definition = made.withId id := by
  constructor
  · intro h
    obtain ⟨kind, hkind, h⟩ := Outcome.bind_eq_ok_iff.mp h
    obtain ⟨hvalid, h⟩ := Outcome.check_bind_eq_ok_iff.mp h
    cases h
    have hkind := Outcome.mapError_eq_ok_iff.mp hkind
    have hcheck := validate_eq_ok_iff.mp (Outcome.mapError_eq_ok_iff.mp hvalid)
    exact ⟨⟨"", name, kind, schema⟩, createWith_eq_ok_iff.mpr ⟨kind, hkind, hcheck, rfl⟩, rfl⟩
  · rintro ⟨made, hmade, rfl⟩
    obtain ⟨kind, hkind, hcheck, rfl⟩ := createWith_eq_ok_iff.mp hmade
    refine Outcome.bind_eq_ok_iff.mpr ⟨kind, Outcome.mapError_eq_ok_iff.mpr hkind, ?_⟩
    refine Outcome.check_bind_eq_ok_iff.mpr ⟨Outcome.mapError_eq_ok_iff.mpr ?_, rfl⟩
    exact validate_eq_ok_iff.mpr hcheck

/-- If there is a kind of the name, a definition cannot be made only because of its schema. -/
theorem create_eq_error {kind : Kind} (hkind : Kind.parse kindName = .ok kind)
    {cause : DefinitionError} (h : create name kindName schema = .error cause) :
    ∃ e, Schema.check schema Schema.defaultCeiling = .error e ∧ cause = .invalidSchema e := by
  rw [create, createWith, hkind] at h
  rcases Outcome.check_bind_eq_error_iff.mp h with hvalid | ⟨-, h⟩
  · obtain ⟨e, he, rfl⟩ := Outcome.mapError_eq_error_iff.mp hvalid
    exact ⟨e, he, rfl⟩
  · cases h

/-- Members of which no definition can be made because of the schema are refused with the same
error. -/
theorem ofMembers_eq_error {kind : Kind} (hkind : Kind.parse kindName = .ok kind)
    {cause : DefinitionError} (h : create name kindName schema = .error cause) :
    ofMembers id name kindName schema = .error (.rejected cause) := by
  obtain ⟨e, he, rfl⟩ := create_eq_error hkind h
  refine Outcome.bind_eq_error_iff.mpr (Or.inr ⟨kind, Outcome.mapError_eq_ok_iff.mpr hkind, ?_⟩)
  refine Outcome.check_bind_eq_error_iff.mpr (Or.inl ?_)
  exact Outcome.mapError_eq_error_iff.mpr
    ⟨_, Outcome.mapError_eq_error_iff.mpr ⟨e, he, rfl⟩, rfl⟩

/-- The text of a refusal is that of the error, if the words of a position occur in no name. -/
theorem message_rejected {e : SchemaError} (h : Text.Unplaced e.message.toList) :
    (Fault.rejected (.invalidSchema e)).message = (DefinitionError.invalidSchema e).message := by
  have hmessage : Text.Unplaced (DefinitionError.invalidSchema e).message.toList := by
    show Text.Unplaced ("Invalid configuration schema: " ++ e.message).toList
    rw [String.toList_append]
    exact h.append_of_ends (by decide +kernel) (by decide +kernel)
  show String.ofList (Text.withoutPosition (DefinitionError.invalidSchema e).message.toList) = _
  rw [hmessage.withoutPosition_eq, String.ofList_toList]

/-- A text of a definition that does not nest too deep is loaded as its members are
accepted. -/
theorem load_jsonText_eq
    (hnesting : Json.nesting (jsonText id name kindName schema).toList ≤ 127)
    (way : Document.Way) :
    document.load (way.document (jsonText id name kindName schema)) =
      (ofMembers id name kindName (Schema.recognized schema)).mapError way.error := by
  rw [nesting_jsonText] at hnesting
  have hanswers := decoder_answers id name kindName schema (Nat.le_of_succ_le_succ hnesting)
  rw [← nesting_written id name kindName] at hnesting
  rw [jsonText_eq_text]
  exact Decoder.load_text hanswers hnesting way

end Made

/-! ### The two ways to a definition -/

/-- **A text that gives a definition**, and nests at most 127 brackets, is loaded exactly if
the definition can be made, with its types recognised, and then gives what is made, with the
identifier. Where the name of the kind is right and the schema is turned down, the error has
the same text after the words for the way in which the text was loaded, if the words of a
position occur in no label and no name of a type. So a definition that was made under any
ceiling, and written, is accepted again exactly if its schema is at most three levels deep, and
comes back with its types recognised. -/
theorem load_jsonText (id name kindName : String) (schema : Schema) (way : Document.Way)
    (hnesting : Json.nesting (jsonText id name kindName schema).toList ≤ 127) :
    (∀ definition,
      document.load (way.document (jsonText id name kindName schema)) = .ok definition ↔
        ∃ made, create name kindName (Schema.recognized schema) = .ok made ∧
          definition = made.withId id) ∧
      (∀ kind cause, Kind.parse kindName = .ok kind →
        create name kindName (Schema.recognized schema) = .error cause →
        (∀ f, Schema.Declares schema f →
          ¬ "at line".toList <:+: f.label.toList ∧ ¬ "at line".toList <:+: f.type.name.toList) →
        ∃ e, document.load (way.document (jsonText id name kindName schema)) = .error e ∧
          e.message = way.announcement ++ cause.message) ∧
      ∀ engine made, createWith name kindName schema engine = .ok made →
        (made.withId id).toJsonText = jsonText id name kindName schema ∧
          ∀ definition,
            document.load (way.document (made.withId id).toJsonText) = .ok definition ↔
              Schema.depth made.schema ≤ 3 ∧
                definition =
                  { made.withId id with schema := Schema.recognized made.schema } := by
  have hload := load_jsonText_eq hnesting way
  have haccepted : ∀ definition,
      document.load (way.document (jsonText id name kindName schema)) = .ok definition ↔
        ∃ made, create name kindName (Schema.recognized schema) = .ok made ∧
          definition = made.withId id := by
    intro definition
    rw [hload, Outcome.mapError_eq_ok_iff, ofMembers_eq_ok_iff]
  refine ⟨haccepted, fun kind cause hkind hcause hnames => ?_, fun engine made hmade => ?_⟩
  · obtain ⟨e, he, rfl⟩ := create_eq_error hkind hcause
    refine ⟨way.error (.rejected (.invalidSchema e)), ?_, ?_⟩
    · rw [hload, ofMembers_eq_error hkind hcause]
      rfl
    · rw [Document.Way.message_error,
        message_rejected (Schema.unplaced_of_check_recognized hnames he)]
  · obtain ⟨kind, hkind, hcheck, rfl⟩ := createWith_eq_ok_iff.mp hmade
    have hname : kindName = kind.name := Kind.parse_eq_ok_iff.mp hkind
    have htext : (withId ⟨"", name, kind, schema⟩ id).toJsonText =
        jsonText id name kindName schema := by
      rw [hname]
      rfl
    refine ⟨htext, fun definition => ?_⟩
    rw [htext, haccepted]
    -- the schema passes under some ceiling, so of the default one only the depth is in question
    have hdepth : Schema.check (Schema.recognized schema) Schema.defaultCeiling = .ok () ↔
        Schema.depth schema ≤ 3 := by
      rw [Schema.check_recognized_iff hcheck, Schema.check_eq_ok_iff_reaches]
      have hlevels := (Schema.check_eq_ok_iff_reaches.mp hcheck).2
      have hthree : Schema.defaultCeiling.toInt = 3 := rfl
      rw [hthree]
      exact ⟨fun h => by omega, fun h => ⟨by omega, hlevels⟩⟩
    constructor
    · rintro ⟨made, hmade, rfl⟩
      obtain ⟨kind', hkind', hpass, rfl⟩ := createWith_eq_ok_iff.mp hmade
      obtain rfl := Except.ok.inj (hkind.symm.trans hkind')
      exact ⟨hdepth.mp hpass, rfl⟩
    · rintro ⟨hle, rfl⟩
      exact ⟨⟨"", name, kind, Schema.recognized schema⟩,
        createWith_eq_ok_iff.mpr ⟨kind, hkind, hdepth.mpr hle, rfl⟩, rfl⟩

/-- Four levels of `object` fields, one more than the default ceiling allows. -/
def fourLevels : Schema :=
  [⟨"a", .object, false, false, [⟨"b", .object, false, false,
    [⟨"c", .object, false, false, [⟨"d", .object, false, false, []⟩]⟩]⟩]⟩]

/-- The three statements on three texts: of a type that comes back under its name, of one that
is refused, and of a schema that is too deep to be loaded again. -/
theorem load_jsonText_samples :
    (Json.nesting
        (jsonText "7" "orders" "source" [⟨"id", .unknown "int", true, false, []⟩]).toList ≤ 127 ∧
      document.load (Document.Way.file.document
          (jsonText "7" "orders" "source" [⟨"id", .unknown "int", true, false, []⟩])) =
        .ok ⟨"7", "orders", .source, [⟨"id", .int, true, false, []⟩]⟩) ∧
      (∃ e, document.load (Document.Way.string.document
          (jsonText "" "orders" "source" [⟨"id", .unknown "number", true, false, []⟩])) =
            .error e ∧
        e.message =
          "Failed to parse config: Invalid configuration schema: Invalid type number") ∧
      createWith "orders" "source" fourLevels ⟨4⟩ = .ok ⟨"", "orders", .source, fourLevels⟩ ∧
      ∀ definition, document.load (Document.Way.tree.document
        (jsonText "" "orders" "source" fourLevels)) ≠ .ok definition := by
  have hint : Json.nesting
      (jsonText "7" "orders" "source" [⟨"id", .unknown "int", true, false, []⟩]).toList ≤ 127 := by
    rw [nesting_jsonText]
    decide
  refine ⟨⟨hint, ?_⟩, ?_, rfl, fun definition hload => ?_⟩
  · refine ((load_jsonText _ _ _ _ _ hint).1 _).mpr ?_
    exact ⟨⟨"", "orders", .source, [⟨"id", .int, true, false, []⟩]⟩, rfl, rfl⟩
  · obtain ⟨-, hrefused, -⟩ := load_jsonText "" "orders" "source"
      [⟨"id", .unknown "number", true, false, []⟩] .string (by rw [nesting_jsonText]; decide)
    refine hrefused .source (.invalidSchema (.invalidType "number")) rfl rfl ?_
    refine Schema.forall_declares_iff.mpr fun f hf => ?_
    obtain rfl := List.mem_singleton.mp hf
    refine ⟨by decide +kernel, fun g hg => ?_⟩
    cases hg with
    | first hmem => cases hmem
    | nested hmem => cases hmem
  · obtain ⟨-, -, hmade⟩ := load_jsonText "" "orders" "source" fourLevels .tree
      (by rw [nesting_jsonText]; decide)
    obtain ⟨hdepth, -⟩ := ((hmade ⟨4⟩ _ rfl).2 definition).mp hload
    exact absurd hdepth (by decide)

end ConfigSchema.Definition
