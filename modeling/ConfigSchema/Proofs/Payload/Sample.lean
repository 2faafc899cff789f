import ConfigSchema.Integration
import ConfigSchema.Proofs.Json.Ordered
import ConfigSchema.Proofs.Payload.Place
import ConfigSchema.Proofs.Value.Decoded

/-!
# Sample configurations

A schema that has passed its own check asks for nothing that cannot be given. A sample of it
is made along the schema: every field gets a value of its declared type, an `object` field a
sample of its children, and an array field as many copies as wanted
(`ConfigSchema.Schema.sample`).

The labels of a level are pairwise distinct, so no sample of a field overwrites another one
(`ConfigSchema.Schema.get?_sample`), and the types are recognised, so each of them has a value
that can be written in a document. Hence the tree is accepted as a configuration, and wherever
a level is reached in it, every declared field is there and every array has the wanted length
(`ConfigSchema.Configuration.exists_sample`).
-/

namespace ConfigSchema

/-! ### Samples -/

/-- The tree that a field holds, given one for each value in it: the value itself, or an array of
`n` of them. -/
def Field.held (n : Nat) (f : Field) (one : Json.Tree) : Json.Tree :=
  if f.isArray then .array (List.replicate n one) else one

mutual

/-- A tree for one value of a field, or for one element if the field is an array of arrays of
`n` elements. A type that is not recognised has no sample, and gets the null value. -/
def Field.sampleOne (n : Nat) : Field → Json.Tree
  | ⟨_, type, _, _, children⟩ =>
    match type with
    | .string => .string ""
    | .int => .number (.natural 0)
    | .float => .number (.float .zero)
    | .decimal => .number (.float .zero)
    | .boolean => .boolean false
    | .object => .object (Schema.sample n children)
    | .unknown _ => .null

/-- **The members of a sample** of a schema, whose arrays have `n` elements. -/
def Schema.sample (n : Nat) : List Field → List (String × Json.Tree)
  | [] => []
  | f :: fs =>
    Keyed.insert f.label (f.held n (f.sampleOne n)) (Schema.sample n fs)

end

/-- A tree for what a field holds. -/
def Field.sample (n : Nat) (f : Field) : Json.Tree := f.held n (f.sampleOne n)

/-- The payload of a sample. -/
def Schema.samplePayload (n : Nat) (schema : Schema) : Payload :=
  Value.ofMembers (Schema.sample n schema)

variable {n : Nat} {schema : Schema} {f : Field}

namespace Field

/-- The sample of an `object` field is an object, sampled from the children. -/
theorem sampleOne_of_object (h : f.type = .object) :
    f.sampleOne n = .object (Schema.sample n f.children) := by
  obtain ⟨label, type, required, isArray, children⟩ := f
  obtain rfl : type = .object := h
  rfl

/-- The value of the sample of an `object` field is the map sampled from the children. -/
theorem ofJson_sampleOne_of_object (h : f.type = .object) :
    Value.ofJson (f.sampleOne n) = .map (Schema.samplePayload n f.children) := by
  rw [sampleOne_of_object h]
  rfl

/-- **Each recognised type accepts its sample.** -/
theorem accepts_sampleOne (h : f.type.isKnown = true) :
    f.type.accepts (Value.ofJson (f.sampleOne n)).kind = true := by
  obtain ⟨label, type, required, isArray, children⟩ := f
  cases type with
  | unknown name => cases h
  | _ => rfl

/-- The value that a sample holds at a field that is no array. -/
theorem ofJson_sample_of_one (h : f.isArray = false) :
    Value.ofJson (f.sample n) = Value.ofJson (f.sampleOne n) := by
  rw [sample, held, if_neg (by rw [h]; exact Bool.false_ne_true)]

/-- The value that a sample holds at an array field. -/
theorem ofJson_sample_of_array (h : f.isArray = true) :
    Value.ofJson (f.sample n) = .list (List.replicate n (Value.ofJson (f.sampleOne n))) := by
  rw [sample, held, if_pos h, Value.ofJson, Value.ofItems_eq_map, List.map_replicate]

/-- The sample of a field is ordered if that of its children is. -/
theorem ordered_sample (h : (Json.Tree.object (Schema.sample n f.children)).Ordered) :
    (f.sample n).Ordered := by
  have hone : (f.sampleOne n).Ordered := by
    by_cases hobject : f.type = .object
    · rw [sampleOne_of_object hobject]
      exact h
    · obtain ⟨label, type, required, isArray, children⟩ := f
      cases type with
      | object => exact absurd rfl hobject
      | string => exact .string _
      | int => exact .number _
      | float => exact .number _
      | decimal => exact .number _
      | boolean => exact .boolean _
      | unknown name => exact .null
  rw [sample, held]
  split
  · refine .array fun j hj => ?_
    rw [List.eq_of_mem_replicate hj]
    exact hone
  · exact hone

end Field

namespace Schema

/-- One field more is one insertion more. -/
theorem sample_cons (fs : List Field) :
    sample n (f :: fs) = Keyed.insert f.label (f.sample n) (sample n fs) := rfl

/-- **No field of a sample is overwritten**, if the labels are pairwise distinct. -/
theorem get?_sample (hnodup : (schema.map Field.label).Nodup) (hf : f ∈ schema) :
    Keyed.get? f.label (sample n schema) = some (f.sample n) := by
  induction schema with
  | nil => cases hf
  | cons g fs ih =>
    obtain ⟨hnew, hnodup⟩ := List.nodup_cons.mp hnodup
    rw [sample_cons, Keyed.get?_insert]
    rcases List.mem_cons.mp hf with rfl | hf
    · rw [if_pos rfl]
    · have hne : g.label ≠ f.label := fun heq =>
        hnew (heq ▸ List.mem_map_of_mem (f := Field.label) hf)
      rw [if_neg hne, ih hnodup hf]

/-- What the payload of a sample holds at a field. -/
theorem get?_samplePayload (hlevel : LevelWellFormed schema) (hf : f ∈ schema) :
    Keyed.get? f.label (samplePayload n schema) = some (Value.ofJson (f.sample n)) := by
  rw [samplePayload, Value.get?_ofMembers, get?_sample hlevel.nodup_labels hf]
  rfl

/-- A sample is an ordered tree. -/
theorem ordered_sample (n : Nat) (schema : Schema) :
    (Json.Tree.object (sample n schema)).Ordered := by
  induction schema using levelInduction with
  | level fields ih =>
    induction fields with
    | nil => exact .object List.Pairwise.nil fun _ h => by cases h
    | cons f fs ihfs =>
      obtain ⟨hf, hfs⟩ := List.forall_mem_cons.mp ih
      rw [sample_cons]
      exact (ihfs hfs).insert (Field.ordered_sample hf)

end Schema

/-! ### Samples are accepted -/

namespace Payload

/-- **A sample passes the check**, if all levels of the schema are well formed and arrays are
not empty. -/
theorem check_samplePayload (hn : 1 ≤ n)
    (hlevels : ∀ level, Schema.Reaches schema level → Schema.LevelWellFormed level) :
    check schema (Schema.samplePayload n schema) = .ok () := by
  induction schema using Schema.levelInduction with
  | level fields ih =>
    obtain ⟨hlevel, hbelow⟩ := Schema.forall_reaches_iff.mp hlevels
    refine check_eq_ok_iff.mpr fun f hf => ?_
    have hget := Schema.get?_samplePayload (n := n) hlevel hf
    have hone : checkOne f (Value.ofJson (f.sampleOne n)) = .ok () := by
      refine checkValue_eq_ok_iff.mpr
        ⟨Field.accepts_sampleOne (hlevel.isKnown_type f hf), fun entries hobject hv => ?_⟩
      rw [Field.ofJson_sampleOne_of_object hobject] at hv
      obtain rfl := Value.map.inj hv
      exact ih f hf (hbelow f hf hobject)
    rw [checkField_eq_ok_iff]
    cases harray : f.isArray with
    | false =>
      rw [Field.ofJson_sample_of_one harray] at hget
      exact Or.inr (Or.inl ⟨_, hget, rfl, hone⟩)
    | true =>
      rw [Field.ofJson_sample_of_array harray] at hget
      refine Or.inr (Or.inr ⟨_, hget, rfl, fun _ hempty => ?_, fun w hw => ?_⟩)
      · have hlength := congrArg List.length hempty
        rw [List.length_replicate, List.length_nil] at hlength
        omega
      · rw [List.eq_of_mem_replicate hw]
        exact hone

/-! ### Every level of a sample is a sample -/

/-- A step that finds a map in a sample, at an `object` field, finds the sample of the
children. -/
theorem eq_samplePayload_of_find? {step : Step} {entries : Payload}
    (hlevel : Schema.LevelWellFormed schema) (hf : f ∈ schema)
    (hfits : step.Fits f (Schema.samplePayload n schema)) (hobject : f.type = .object)
    (hfind : step.find? (Schema.samplePayload n schema) = some (.map entries)) :
    entries = Schema.samplePayload n f.children := by
  have hget := Schema.get?_samplePayload (n := n) hlevel hf
  have hone : Value.map entries = Value.ofJson (f.sampleOne n) → entries =
      Schema.samplePayload n f.children := fun h =>
    Value.map.inj (h.trans (Field.ofJson_sampleOne_of_object hobject))
  rw [Step.find?, hfits.label_eq, hget] at hfind
  cases harray : f.isArray with
  | false =>
    cases hindex : step.index with
    | none =>
      rw [hindex, Field.ofJson_sample_of_one harray] at hfind
      exact hone (Option.some.inj hfind).symm
    | some i =>
      rw [(hfits.index_lt i hindex).1] at harray
      cases harray
  | true =>
    rw [Field.ofJson_sample_of_array harray] at hfind
    cases hindex : step.index with
    | none =>
      rw [hindex] at hfind
      cases hfind
    | some i =>
      rw [hindex] at hfind
      exact hone (List.eq_of_mem_replicate (List.mem_of_getElem? hfind))

/-- **Wherever steps lead in a sample, they lead to a sample** of the level that they lead
to. -/
theorem eq_samplePayload_of_leads {level : Schema} {steps : List Step} {reached : Payload}
    (hlevels : ∀ level, Schema.Reaches schema level → Schema.LevelWellFormed level)
    (h : Leads schema (Schema.samplePayload n schema) steps level reached) :
    reached = Schema.samplePayload n level := by
  generalize hpayload : Schema.samplePayload n schema = payload at h
  induction h with
  | here => exact hpayload.symm
  | into hf hfits hobject hfind _ ih =>
    subst hpayload
    obtain ⟨hlevel, hbelow⟩ := Schema.forall_reaches_iff.mp hlevels
    exact ih (hbelow _ hf hobject)
      (eq_samplePayload_of_find? hlevel hf hfits hobject hfind).symm

end Payload

/-! ### The main statement -/

/-- **A schema that has passed its check has a configuration with everything in it**: for
every length that is not zero there is an object, ordered as trees are, that is accepted as a
configuration, and at every level that steps lead to in it, every declared field is present,
required or not, and every array field holds a list of exactly that length. -/
theorem Configuration.exists_sample {schema : Schema} {ceiling : Int32}
    (hschema : Schema.check schema ceiling = .ok ()) {n : Nat} (hn : 1 ≤ n) :
    ∃ members : List (String × Json.Tree), (Json.Tree.object members).Ordered ∧
      ∃ configuration : Configuration,
        Configuration.ofJson (.object members) schema = .ok configuration ∧
        ∀ (steps : List Payload.Step) (level : Schema) (entries : Payload),
          Payload.Leads schema configuration.payload steps level entries →
          ∀ f ∈ level, ∃ v, Keyed.get? f.label entries = some v ∧
            (f.isArray = true → ∃ items, v = .list items ∧ items.length = n) := by
  have hlevels := (Schema.check_eq_ok_iff_reaches.mp hschema).2
  have hcheck := Payload.check_samplePayload hn hlevels
  refine ⟨Schema.sample n schema, Schema.ordered_sample n schema,
    ⟨Schema.samplePayload n schema⟩, ?_, fun steps level entries hleads f hf => ?_⟩
  · exact Outcome.check_bind_eq_ok_iff.mpr ⟨hcheck, rfl⟩
  · obtain rfl := Payload.eq_samplePayload_of_leads hlevels hleads
    have hget := Schema.get?_samplePayload (n := n) (hlevels level hleads.reaches) hf
    exact ⟨_, hget, fun harray => ⟨_, Field.ofJson_sample_of_array harray,
      List.length_replicate⟩⟩

/-- An optional array of objects with an optional array of numbers. -/
def Schema.nestedOptionals : Schema :=
  [⟨"host", .string, true, false, []⟩,
    ⟨"pools", .object, false, true, [⟨"weights", .decimal, false, true, []⟩]⟩]

/-- Three pools with three weights each can be had, though nothing asks for them. -/
theorem Configuration.exists_sample_nestedOptionals :
    Schema.check Schema.nestedOptionals 1 = .ok () ∧ 1 ≤ 3 ∧
      ∃ members : List (String × Json.Tree), (Json.Tree.object members).Ordered ∧
        ∃ configuration : Configuration,
          Configuration.ofJson (.object members) Schema.nestedOptionals = .ok configuration ∧
          ∀ (steps : List Payload.Step) (level : Schema) (entries : Payload),
            Payload.Leads Schema.nestedOptionals configuration.payload steps level entries →
            ∀ f ∈ level, ∃ v, Keyed.get? f.label entries = some v ∧
              (f.isArray = true → ∃ items, v = .list items ∧ items.length = 3) :=
  ⟨rfl, by decide, exists_sample (show Schema.check Schema.nestedOptionals 1 = .ok () from rfl)
    (by decide)⟩

end ConfigSchema
