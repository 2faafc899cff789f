import ConfigSchema.Proofs.Payload.Verdict

/-!
# What the check of a payload looks at

The check of a payload reads of a value only its kind, of a list its length and its elements
in order, and it goes down only where an `object` field meets a map. All it sees is therefore
the *skeleton* of a payload relative to a schema. Two payloads that have the same skeleton
(`ConfigSchema.SameSkeleton`) may differ in the contents of scalars, in keys that are not
declared, and in everything that is stored below a field that is no `object`.

They get the same answer (`ConfigSchema.Payload.check_eq_of_sameSkeleton`): both pass, or both
fail with one error, with the same labels, indices and kinds.
-/

namespace ConfigSchema

mutual

/-- **Two values have the same skeleton** relative to a declared type and its children: they
are of one kind, and if the type is `object` and they are maps, the maps have the same
skeleton. -/
inductive Value.SameSkeleton : FieldType → Schema → Value → Value → Prop
  /-- The maps of an `object` field are compared further, all else by its kind. -/
  | intro {type : FieldType} {children : Schema} {v w : Value} (kind_eq : v.kind = w.kind)
      (maps : ∀ entries entries', type = .object → v = .map entries → w = .map entries' →
        SameSkeleton children entries entries') :
    Value.SameSkeleton type children v w

/-- **Two payloads have the same skeleton at a field.** -/
inductive Field.SameSkeleton : Field → Payload → Payload → Prop
  /-- Both lack the label. -/
  | absent {f : Field} {payload payload' : Payload}
      (get_eq : Keyed.get? f.label payload = none)
      (get_eq' : Keyed.get? f.label payload' = none) :
    Field.SameSkeleton f payload payload'
  /-- Both hold a value at a field that is no array. -/
  | one {f : Field} {payload payload' : Payload} {v w : Value}
      (get_eq : Keyed.get? f.label payload = some v)
      (get_eq' : Keyed.get? f.label payload' = some w) (isOne : f.isArray = false)
      (same : Value.SameSkeleton f.type f.children v w) :
    Field.SameSkeleton f payload payload'
  /-- Both hold a value at an array field; if these are lists, they are of one length, and
  elements at one index have the same skeleton. -/
  | array {f : Field} {payload payload' : Payload} {v w : Value}
      (get_eq : Keyed.get? f.label payload = some v)
      (get_eq' : Keyed.get? f.label payload' = some w) (isArray : f.isArray = true)
      (kind_eq : v.kind = w.kind)
      (length_eq : ∀ items items', v = .list items → w = .list items' →
        items.length = items'.length)
      (elements : ∀ items items' (i : Nat) x y, v = .list items → w = .list items' →
        items[i]? = some x → items'[i]? = some y → Value.SameSkeleton f.type f.children x y) :
    Field.SameSkeleton f payload payload'

/-- **Two payloads have the same skeleton** relative to a schema: they have it at every
declared field. -/
inductive SameSkeleton : Schema → Payload → Payload → Prop
  /-- Of keys that are not declared nothing is asked. -/
  | intro {schema : Schema} {payload payload' : Payload}
      (fields : ∀ f ∈ schema, Field.SameSkeleton f payload payload') :
    SameSkeleton schema payload payload'

end

namespace Payload

/-! ### Each part of the check looks at the skeleton only -/

/-- The answer for one value is decided by its kind, and by the answer for the children where
an `object` field holds a map. -/
theorem checkValue_congr {label : String} {type : FieldType}
    {nested nested' : Payload → Except ValidationError Unit} {v w : Value}
    (hkind : v.kind = w.kind)
    (hnested : ∀ entries entries', type = .object → v = .map entries → w = .map entries' →
      nested entries = nested' entries') :
    checkValue label type nested v = checkValue label type nested' w := by
  cases hknown : type.isKnown with
  | false =>
    obtain ⟨name, rfl⟩ := FieldType.isKnown_eq_false_iff.mp hknown
    rfl
  | true =>
    cases haccepts : type.accepts v.kind with
    | false =>
      rw [checkValue_of_refused hknown haccepts,
        checkValue_of_refused hknown (hkind ▸ haccepts), hkind]
    | true =>
      by_cases hobject : type = .object
      · subst hobject
        obtain ⟨entries, rfl⟩ :=
          Value.kind_eq_map_iff.mp (FieldType.accepts_object_iff.mp haccepts)
        obtain ⟨entries', rfl⟩ := Value.kind_eq_map_iff.mp hkind.symm
        have h := hnested entries entries' rfl rfl rfl
        rw [checkValue, checkValue, h]
      · have hok : ∀ (inner : Payload → Except ValidationError Unit) (u : Value),
            type.accepts u.kind = true → checkValue label type inner u = .ok () :=
          fun _ u hu => checkValue_eq_ok_iff.mpr ⟨hu, fun _ ho => absurd ho hobject⟩
        rw [hok nested v haccepts, hok nested' w (hkind ▸ haccepts)]

/-- The answer for the elements of an array is decided by the answers for each of them, in
order. -/
theorem checkElements_congr {label : String} {element : Value → Except ValidationError Unit}
    {items items' : List Value} (h : items.map element = items'.map element) (index : Nat) :
    checkElements label element index items = checkElements label element index items' := by
  induction items generalizing items' index with
  | nil =>
    obtain rfl := List.map_eq_nil_iff.mp h.symm
    rfl
  | cons v rest ih =>
    obtain ⟨w, rest', rfl, hw, hrest⟩ := List.map_eq_cons_iff.mp h.symm
    rw [checkElements, checkElements, hw, ih hrest.symm]

/-- The answer for the value of an array field is decided by its kind, and by the answers for
its elements if it is a list. -/
theorem checkArray_congr {label : String} {type : FieldType} {required : Bool}
    {element : Value → Except ValidationError Unit} {v w : Value} (hkind : v.kind = w.kind)
    (helements : ∀ items items', v = .list items → w = .list items' →
      items.map element = items'.map element) :
    checkArray label type required element v = checkArray label type required element w := by
  by_cases hlist : v.kind = .list
  · obtain ⟨items, rfl⟩ := Value.kind_eq_list_iff.mp hlist
    obtain ⟨items', rfl⟩ := Value.kind_eq_list_iff.mp hkind.symm
    have h := helements items items' rfl rfl
    cases items with
    | nil =>
      obtain rfl := List.map_eq_nil_iff.mp h.symm
      rfl
    | cons x rest =>
      obtain ⟨y, rest', rfl, -, -⟩ := List.map_eq_cons_iff.mp h.symm
      exact checkElements_congr h 0
  · have hv : v.items? = none := Value.items?_eq_none_iff.mpr hlist
    have hw : w.items? = none := Value.items?_eq_none_iff.mpr (hkind ▸ hlist)
    rw [checkArray, checkArray, hv, hw, hkind]

/-- The answer for a payload is decided by the answers for the declared fields. -/
theorem check_congr {schema : Schema} {payload payload' : Payload}
    (h : ∀ f ∈ schema, checkField f payload = checkField f payload') :
    check schema payload = check schema payload' := by
  induction schema with
  | nil => rfl
  | cons f fs ih =>
    obtain ⟨hf, hfs⟩ := List.forall_mem_cons.mp h
    have hrest : checkFields fs payload = checkFields fs payload' := ih hfs
    rw [check, check, checkFields, checkFields, hf, hrest]

/-! ### Payloads with the same skeleton -/

/-- Values with the same skeleton get the same answer, if maps with the same skeleton do. -/
theorem checkOne_eq_of_sameSkeleton {f : Field} {v w : Value}
    (hbelow : ∀ entries entries', SameSkeleton f.children entries entries' →
      check f.children entries = check f.children entries')
    (h : Value.SameSkeleton f.type f.children v w) : checkOne f v = checkOne f w := by
  obtain ⟨hkind, hmaps⟩ := h
  exact checkValue_congr hkind fun entries entries' hobject hv hw =>
    hbelow entries entries' (hmaps entries entries' hobject hv hw)

/-- Payloads with the same skeleton at a field get the same answer there, if maps with the
same skeleton do. -/
theorem checkField_eq_of_sameSkeleton {f : Field} {payload payload' : Payload}
    (hbelow : ∀ entries entries', SameSkeleton f.children entries entries' →
      check f.children entries = check f.children entries')
    (h : f.SameSkeleton payload payload') : checkField f payload = checkField f payload' := by
  rw [checkField_eq, checkField_eq]
  rcases h with ⟨hget, hget'⟩ | ⟨hget, hget', hone, hsame⟩ |
    ⟨hget, hget', harray, hkind, hlength, helements⟩
  · rw [hget, hget']
  · simp only [hget, hget', hone]
    exact checkOne_eq_of_sameSkeleton hbelow hsame
  · simp only [hget, hget', harray, if_true]
    refine checkArray_congr hkind fun items items' hv hw => ?_
    -- index by index: an index within one list is within the other
    refine List.ext_getElem (by simp [hlength items items' hv hw]) fun i hi hi' => ?_
    rw [List.getElem_map, List.getElem_map]
    rw [List.length_map] at hi hi'
    exact checkOne_eq_of_sameSkeleton hbelow (helements items items' i _ _ hv hw
      (List.getElem?_eq_getElem hi) (List.getElem?_eq_getElem hi'))

/-- **Noninterference**: payloads that have the same skeleton relative to a schema get the
same answer from the check against it, the error included. The schema need not have been
checked. -/
theorem check_eq_of_sameSkeleton {schema : Schema} {payload payload' : Payload}
    (h : SameSkeleton schema payload payload') :
    check schema payload = check schema payload' := by
  induction schema using Schema.levelInduction generalizing payload payload' with
  | level fields ih =>
    obtain ⟨hfields⟩ := h
    exact check_congr fun f hf =>
      checkField_eq_of_sameSkeleton (fun _ _ hsame => ih f hf hsame) (hfields f hf)

/-! ### Two payloads that differ in all that does not matter -/

/-- An array of objects, whose field `tag` is a text with children that mean nothing. -/
def taggedPorts : Schema :=
  [⟨"ports", .object, true, true, [⟨"number", .int, true, false, []⟩,
    ⟨"tag", .string, false, false, [⟨"x", .unknown "uuid", true, false, []⟩]⟩]⟩]

/-- A payload whose second port has no number. -/
def unnumbered : Payload :=
  [("ports", .list [.map [("number", .integer 80), ("tag", .string "web")], .map []])]

/-- The same skeleton: another number, another tag, keys that are not declared at the root, in
the first port and in the second. -/
def unnumbered' : Payload :=
  [("owner", .list []),
    ("ports", .list [.map [("note", .null), ("number", .integer (-1)), ("tag", .string "")],
      .map [("extra", .map [("number", .float .zero)])]])]

/-- The two payloads have the same skeleton. -/
theorem sameSkeleton_unnumbered : SameSkeleton taggedPorts unnumbered unnumbered' := by
  refine .intro fun f hf => ?_
  obtain rfl := List.mem_singleton.mp hf
  refine .array rfl rfl rfl rfl ?_ ?_
  · intro items items' hv hw
    cases hv
    cases hw
    rfl
  · intro items items' i x y hv hw hx hy
    cases hv
    cases hw
    have hport : ∀ entries entries' : Payload,
        (∀ g ∈ (taggedPorts[0]).children, g.SameSkeleton entries entries') →
        Value.SameSkeleton .object (taggedPorts[0]).children (.map entries) (.map entries') := by
      intro entries entries' h
      refine .intro rfl fun _ _ _ hm hm' => ?_
      cases hm
      cases hm'
      exact .intro h
    match i, hx, hy with
    | 0, hx, hy =>
      cases hx
      cases hy
      refine hport _ _ (List.forall_mem_cons.mpr ⟨?_, List.forall_mem_singleton.mpr ?_⟩)
      · exact .one rfl rfl rfl (.intro rfl fun _ _ ho => by cases ho)
      · exact .one rfl rfl rfl (.intro rfl fun _ _ ho => by cases ho)
    | 1, hx, hy =>
      cases hx
      cases hy
      refine hport _ _ (List.forall_mem_cons.mpr ⟨?_, List.forall_mem_singleton.mpr ?_⟩)
      · exact .absent rfl rfl
      · exact .absent rfl rfl
    | i + 2, hx, _ => cases hx

/-- Both payloads fail at the second port. -/
theorem check_eq_of_sameSkeleton_unnumbered :
    SameSkeleton taggedPorts unnumbered unnumbered' ∧
      check taggedPorts unnumbered' = .error (.invalidArrayElement "ports" 1
        (.invalidObject "ports" (.missingRequiredField "number"))) :=
  ⟨sameSkeleton_unnumbered, (check_eq_of_sameSkeleton sameSkeleton_unnumbered).symm.trans rfl⟩

end Payload

end ConfigSchema
