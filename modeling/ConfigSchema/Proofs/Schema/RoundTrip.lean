import ConfigSchema.Proofs.Reading.Records
import ConfigSchema.Proofs.Schema.Recognized

/-!
# Schemas are read back from what is written

A schema is written field by field, with the children of a field inside it, whatever its type
is. As a document (`ConfigSchema.Schema.written`) it is the same whether its types have been
recognised or not, since only their names are in it; and what is answered to the document is
the recognised schema, if there are enough levels for its brackets
(`ConfigSchema.Schema.decoder_answers`). These two meet in the round trip
(`ConfigSchema.Schema.read_toJsonText`).

The levels of a schema and those of a reader do not agree in number: a level of the schema
takes a bracket for the array and a brace for each of its fields. So the induction is on the
levels of the schema, for any number of levels of the reader, and goes down two of these at
once.
-/

namespace ConfigSchema

open Reading

/-! ### Written schemas -/

mutual

/-- A field as a written document. -/
def Field.written : Field → Json.Written
  | ⟨label, type, required, isArray, children⟩ =>
    let members : List (String × Json.Written) :=
      [("label", .string label), ("type", .string type.name), ("required", .boolean required),
        ("array", .boolean isArray)]
    let nested := Schema.writtenFields children
    .object (if nested.isEmpty then members else members ++ [("fields", .array nested)])

/-- The fields of a level as written documents. -/
def Schema.writtenFields : List Field → List Json.Written
  | [] => []
  | f :: fs => f.written :: Schema.writtenFields fs

end

/-- A schema as a written document. -/
def Schema.written (schema : Schema) : Json.Written := .array (Schema.writtenFields schema)

namespace Schema

theorem writtenFields_eq_map (schema : List Field) :
    writtenFields schema = schema.map Field.written := by
  induction schema with
  | nil => rfl
  | cons f fs ih => rw [writtenFields, ih, List.map_cons]

theorem writeFields_eq_map (schema : List Field) :
    writeFields schema = schema.map Field.write := by
  induction schema with
  | nil => rfl
  | cons f fs ih => rw [writeFields, ih, List.map_cons]

end Schema

/-- The text of a field is that of its document, if this is so for its children. -/
theorem Field.write_eq_text {f : Field}
    (h : Schema.writeFields f.children = (Schema.writtenFields f.children).map Json.Written.text) :
    f.write = f.written.text := by
  obtain ⟨label, type, required, isArray, children⟩ := f
  rw [Field.write, Field.written, Json.Written.text_object, show _ = _ from h, List.isEmpty_map]
  cases Schema.writtenFields children with
  | nil => rfl
  | cons w ws => simp

/-- The texts of the fields of a level are those of their documents. -/
theorem Schema.writeFields_eq_map_text (schema : List Field) :
    Schema.writeFields schema = (Schema.writtenFields schema).map Json.Written.text := by
  induction schema using Schema.levelInduction with
  | level fields ih =>
    rw [writeFields_eq_map, writtenFields_eq_map, List.map_map]
    exact List.map_congr_left fun f hf => Field.write_eq_text (ih f hf)

/-- **What is written for a schema** is the text of its document. -/
theorem Schema.write_eq_text (schema : Schema) :
    Schema.write schema = (Schema.written schema).text := by
  rw [Schema.write, Schema.writeFields_eq_map_text, Schema.written, Json.Written.text_array]

/-! ### Answers -/

namespace Field

/-- The label, as it is written. -/
def givenLabel (f : Field) : Given Draft :=
  .of "label" (.string f.label) (fun x d => { d with label := some x }) (.ok f.label)

/-- The name of the type, as it is written. -/
def givenType (f : Field) : Given Draft :=
  .of "type" (.string f.type.name) (fun x d => { d with type := some x })
    (.ok f.type.recognized)

/-- The first flag, as it is written. -/
def givenRequired (f : Field) : Given Draft :=
  .of "required" (.boolean f.required) (fun x d => { d with required := some x })
    (.ok f.required)

/-- The second flag, as it is written. -/
def givenArray (f : Field) : Given Draft :=
  .of "array" (.boolean f.isArray) (fun x d => { d with isArray := some x }) (.ok f.isArray)

/-- The children, as they are written, with what is answered to them. -/
def givenChildren (f : Field) (answer : Except Fault Schema) : Given Draft :=
  .of "fields" (Schema.written f.children) (fun x d => { d with children := some x }) answer

section Answered

variable (f : Field) (children : Decoder Schema)

theorem givenLabel_answered : f.givenLabel.Answered (members children) :=
  Given.answered_of rfl (Decoder.string_answers f.label)

theorem givenType_answered : f.givenType.Answered (members children) := by
  have htype : FieldType.decoder.Answers (.string f.type.name) (.ok f.type.recognized) := by
    rw [← FieldType.parse_name]
    exact (Decoder.string_answers f.type.name).map FieldType.parse
  exact Given.answered_of rfl htype

theorem givenRequired_answered : f.givenRequired.Answered (members children) :=
  Given.answered_of rfl (Decoder.boolean_answers f.required)

theorem givenArray_answered : f.givenArray.Answered (members children) :=
  Given.answered_of rfl (Decoder.boolean_answers f.isArray)

theorem givenChildren_answered {answer : Except Fault Schema}
    (h : children.Answers (Schema.written f.children) answer) :
    (f.givenChildren answer).Answered (members children) :=
  Given.answered_of rfl h

end Answered

theorem decoder_zero_answers (f : Field) :
    (Field.decoder 0).Answers f.written (.error .tooDeep) := by
  obtain ⟨label, type, required, isArray, children⟩ := f
  exact shape.decoder_none_answers _

/-! A field is written without its children if there are none. So there are two orders of
keys, with and without them. -/

theorem written_of_children_eq_nil {f : Field} (hf : f.children = []) :
    f.written = .object
      ([f.givenLabel, f.givenType, f.givenRequired, f.givenArray].map Given.written) := by
  obtain ⟨label, type, required, isArray, children⟩ := f
  obtain rfl : children = [] := hf
  rfl

theorem written_of_children_ne_nil {f : Field} (hf : f.children ≠ [])
    (answer : Except Fault Schema) :
    f.written = .object
      ([f.givenLabel, f.givenType, f.givenRequired, f.givenArray,
        f.givenChildren answer].map Given.written) := by
  obtain ⟨label, type, required, isArray, children⟩ := f
  cases children with
  | nil => exact absurd rfl hf
  | cons g gs => rfl

theorem ofList_members_without_children (l t r a : Json.Tree) :
    Keyed.ofList [("label", l), ("type", t), ("required", r), ("array", a)] =
      [("array", a), ("label", l), ("required", r), ("type", t)] := by
  simp only [Keyed.ofList, Keyed.insert, List.foldl_cons, List.foldl_nil, String.reduceLT,
    String.reduceEq, if_true, if_false]

theorem ofList_members_with_children (l t r a c : Json.Tree) :
    Keyed.ofList [("label", l), ("type", t), ("required", r), ("array", a), ("fields", c)] =
      [("array", a), ("fields", c), ("label", l), ("required", r), ("type", t)] := by
  simp only [Keyed.ofList, Keyed.insert, List.foldl_cons, List.foldl_nil, String.reduceLT,
    String.reduceEq, if_true, if_false]

/-- A field without children is answered as it is. -/
theorem decoder_answers_of_children_eq_nil {f : Field} (hf : f.children = []) (n : Nat) :
    (Field.decoder (n + 1)).Answers f.written (.ok f.recognized) := by
  have hgiven : ∀ g ∈ [f.givenLabel, f.givenType, f.givenRequired, f.givenArray],
      g.Answered (members (Schema.decoder n)) := by
    simp only [List.forall_mem_cons, List.not_mem_nil, false_imp_iff, implies_true, and_true]
    exact ⟨f.givenLabel_answered _, f.givenType_answered _, f.givenRequired_answered _,
      f.givenArray_answered _⟩
  have hrecord := shape.decoder_answers
    [f.givenArray, f.givenLabel, f.givenRequired, f.givenType]
    (.ok ⟨some f.label, some f.type.recognized, some f.required, some f.isArray, none⟩)
    hgiven (by simp) (ofList_members_without_children ..) rfl rfl
  rw [written_of_children_eq_nil hf, recognized_eq, hf]
  exact hrecord

/-- A field with children is answered from the answer to them. -/
theorem decoder_answers_of_children_ne_nil {f : Field} {n : Nat} {answer : Except Fault Schema}
    (hf : f.children ≠ [])
    (h : (Schema.decoder n).Answers (Schema.written f.children) answer) :
    (Field.decoder (n + 1)).Answers f.written
      (answer.map fun children =>
        ⟨f.label, f.type.recognized, f.required, f.isArray, children⟩) := by
  have hgiven : ∀ g ∈ [f.givenLabel, f.givenType, f.givenRequired, f.givenArray,
      f.givenChildren answer], g.Answered (members (Schema.decoder n)) := by
    simp only [List.forall_mem_cons, List.not_mem_nil, false_imp_iff, implies_true, and_true]
    exact ⟨f.givenLabel_answered _, f.givenType_answered _, f.givenRequired_answered _,
      f.givenArray_answered _, f.givenChildren_answered _ h⟩
  have hrecord := shape.decoder_answers
    [f.givenArray, f.givenChildren answer, f.givenLabel, f.givenRequired, f.givenType]
    (answer.map fun children =>
      ⟨some f.label, some f.type.recognized, some f.required, some f.isArray, some children⟩)
    hgiven (by simp) (ofList_members_with_children ..)
    -- all members but the children are read without a fault, whatever their order is
    (by cases answer <;> rfl) (by cases answer <;> rfl)
  rw [written_of_children_ne_nil hf answer]
  cases answer <;> exact hrecord

/-- The nesting of a field is one more than that of its children, if there are any. -/
theorem nesting_written (f : Field) :
    f.written.nesting =
      if f.children = [] then 1 else (Schema.written f.children).nesting + 1 := by
  split
  · next hf =>
    rw [written_of_children_eq_nil hf, Json.Written.nesting_object]
    rfl
  · next hf =>
    rw [written_of_children_ne_nil hf (.error .tooDeep), Json.Written.nesting_object]
    show max 0 (max 0 (max 0 (max 0 (max _ 0)))) + 1 = _
    simp [givenChildren, Given.of, Given.written]

/-- **A written field** is answered with the recognised one if its children are. -/
theorem decoder_answers {f : Field} {n : Nat}
    (h : (Schema.decoder n).Answers (Schema.written f.children)
      (within n (Schema.written f.children).nesting (Schema.recognized f.children))) :
    (Field.decoder (n + 1)).Answers f.written (within (n + 1) f.written.nesting f.recognized) := by
  rw [nesting_written]
  split
  · next hf =>
    rw [within_succ_succ, within_zero]
    exact decoder_answers_of_children_eq_nil hf n
  · next hf =>
    have hrecord := decoder_answers_of_children_ne_nil hf h
    rw [map_within] at hrecord
    rw [within_succ_succ, recognized_eq]
    exact hrecord

end Field

/-- **A written schema** is answered with the recognised one if there are enough levels. -/
theorem Schema.decoder_answers (schema : Schema) (n : Nat) :
    (Schema.decoder n).Answers (Schema.written schema)
      (within n (Schema.written schema).nesting (Schema.recognized schema)) := by
  induction schema using Schema.levelInduction generalizing n with
  | level fields ih =>
    rw [Schema.written, Json.Written.nesting_array]
    cases n with
    | zero => exact Decoder.list_none_answers _
    | succ n =>
      have hfield : ∀ f ∈ fields, (Field.decoder n).Answers f.written
          (within n f.written.nesting f.recognized) := by
        intro f hf
        cases n with
        | zero =>
          -- the bracket of the schema was the last one: there is none for the brace of the field
          rw [Field.nesting_written, within_of_lt (by split <;> omega)]
          exact f.decoder_zero_answers
        | succ n => exact Field.decoder_answers (ih f hf n)
      have hlist := Decoder.list_answers hfield
      rw [mapM_within] at hlist
      rw [within_succ_succ, Schema.writtenFields_eq_map, Schema.recognized_eq_map, List.map_map]
      exact hlist

/-! ### The round trip -/

namespace Field

/-- Of a field and the recognised one the same is written. -/
theorem written_recognized {f : Field}
    (h : Schema.writtenFields (Schema.recognized f.children) = Schema.writtenFields f.children) :
    f.recognized.written = f.written := by
  obtain ⟨label, type, required, isArray, children⟩ := f
  rw [recognized, written, written, FieldType.name_recognized, show _ = _ from h]

end Field

namespace Schema

theorem writtenFields_recognized (schema : List Field) :
    writtenFields (Schema.recognized schema) = writtenFields schema := by
  induction schema using levelInduction with
  | level fields ih =>
    rw [writtenFields_eq_map, writtenFields_eq_map, recognized_eq_map, List.map_map]
    exact List.map_congr_left fun f hf => Field.written_recognized (ih f hf)

theorem toJsonText_eq_text (schema : Schema) :
    Schema.toJsonText schema = String.ofList (Schema.written schema).text := by
  rw [toJsonText, write_eq_text]

/-- The brackets of the text of a schema are those of its document. -/
theorem nesting_toJsonText (schema : Schema) :
    Json.nesting (Schema.toJsonText schema).toList = (Schema.written schema).nesting := by
  rw [toJsonText_eq_text, String.toList_ofList, Json.nesting_text]

/-- **A schema that is written is read back as the recognised one**, in one pass and by way of
a tree alike, if its text nests at most 127 brackets; if it nests more, then it is turned down
for this. The recognised schema is the schema itself exactly if no field of it, at any level,
has a type that is unknown under one of the six names; and the same is written for it. -/
theorem read_toJsonText (schema : Schema) :
    Schema.document.read (.ofString (Schema.toJsonText schema)) =
        (if Json.nesting (Schema.toJsonText schema).toList ≤ 127
          then .ok (Schema.recognized schema) else .error .tooDeep) ∧
      Schema.document.readByTree (.ofString (Schema.toJsonText schema)) =
        (if Json.nesting (Schema.toJsonText schema).toList ≤ 127
          then .ok (Schema.recognized schema) else .error .tooDeep) ∧
      (Schema.recognized schema = schema ↔
        ∀ f, Declares schema f → ∀ name, f.type = .unknown name → name ∉ FieldType.names) ∧
      Schema.toJsonText (Schema.recognized schema) = Schema.toJsonText schema := by
  have hanswers := Schema.decoder_answers schema maxNesting
  rw [nesting_toJsonText, toJsonText_eq_text, ofString_ofList]
  refine ⟨Decoder.read_text hanswers, ?_, recognized_eq_iff, ?_⟩
  · refine (Decoder.readByTree_text hanswers).trans ?_
    split
    · next hle => exact (within_of_le hle _).trans (if_pos hle).symm
    · next hle => exact (if_neg hle).symm
  · have hwritten : Schema.written (Schema.recognized schema) = Schema.written schema :=
      congrArg Json.Written.array (writtenFields_recognized schema)
    rw [toJsonText_eq_text, hwritten]

end Schema

end ConfigSchema
