import ConfigSchema.Proofs.Payload.Blame

/-!
# A single damage is reported where it was done

A payload that passes is damaged at one place: steps lead to a map in it, what one field has
there is removed or replaced, and all else stays as it was
(`ConfigSchema.Payload.DifferBehind`, `ConfigSchema.Payload.Damage`). The check then fails, and
its error is the damage, wrapped along the steps
(`ConfigSchema.Payload.check_eq_error_of_damage`).

Two things keep every other fault away. The labels of a level are pairwise distinct, so no
other field looks at the label that was changed; and every other element of an array passes as
it did before. At the place itself the damage tells what is at fault, as
`ConfigSchema.Payload.FaultAt` does for an error that was found. So the path of the error is how
the place is written (`ConfigSchema.Payload.check_damaged_points_at_damage`).
-/

namespace ConfigSchema

namespace Payload

/-! ### Payloads that differ at one place -/

/-- The second payload has at every label but one what the first one has. -/
def AgreeExcept (label : String) (payload payload' : Payload) : Prop :=
  ∀ key, key ≠ label → Keyed.get? key payload' = Keyed.get? key payload

/-- **The second payload is the first one with another value at a step**, and with nothing
else changed. -/
inductive Step.Replaced : Step → Payload → Payload → Value → Prop
  /-- The value of a label is another one. -/
  | atField {label : String} {payload payload' : Payload} {v : Value}
      (agree : AgreeExcept label payload payload')
      (get_eq : Keyed.get? label payload' = some v) :
    Replaced ⟨label, none⟩ payload payload' v
  /-- One element of the list at a label is another one. -/
  | atElement {label : String} {i : Nat} {payload payload' : Payload} {items : List Value}
      {v : Value} (agree : AgreeExcept label payload payload')
      (get_eq : Keyed.get? label payload = some (.list items)) (lt : i < items.length)
      (get_eq' : Keyed.get? label payload' = some (.list (items.set i v))) :
    Replaced ⟨label, some i⟩ payload payload' v

/-- **Two payloads differ only behind steps**: each step finds a map in the first one, and the
second one has another map there and nothing else changed. What the two maps at the end have in
common is left open. -/
inductive DifferBehind : Payload → Payload → List Step → Payload → Payload → Prop
  /-- No step stays at the root. -/
  | here {payload payload' : Payload} : DifferBehind payload payload' [] payload payload'
  /-- One step more, at the front. -/
  | into {payload payload' : Payload} {step : Step} {entries entries' : Payload}
      {steps : List Step} {reached reached' : Payload}
      (find_eq : step.find? payload = some (.map entries))
      (replaced : step.Replaced payload payload' (.map entries'))
      (below : DifferBehind entries entries' steps reached reached') :
    DifferBehind payload payload' (step :: steps) reached reached'

/-- **What is done to a map at one field**: the step at which it is done, and the fault that it
is. -/
inductive Damage (f : Field) (entries entries' : Payload) : Step → ValidationError → Prop
  /-- The key of a required field is removed. -/
  | removed (isRequired : f.required = true) (agree : AgreeExcept f.label entries entries')
      (get_eq : Keyed.get? f.label entries' = none) :
    Damage f entries entries' (.ofField f) (.missingRequiredField f.label)
  /-- A required array is replaced by an empty list. -/
  | emptied (isRequired : f.required = true) (isArray : f.isArray = true)
      (replaced : (Step.ofField f).Replaced entries entries' (.list [])) :
    Damage f entries entries' (.ofField f) (.emptyRequiredArray f.label)
  /-- The value of an array field is replaced by something that is no list. -/
  | noList {v : Value} (isArray : f.isArray = true) (kind_ne : v.kind ≠ .list)
      (replaced : (Step.ofField f).Replaced entries entries' v) :
    Damage f entries entries' (.ofField f) (.typeMismatch f.label f.type v.kind)
  /-- The value of a field that is no array is replaced by one of a kind that the declared type
  does not accept. -/
  | value {v : Value} (isOne : f.isArray = false) (refused : f.type.accepts v.kind = false)
      (replaced : (Step.ofField f).Replaced entries entries' v) :
    Damage f entries entries' (.ofField f) (.typeMismatch f.label f.type v.kind)
  /-- An element of an array is replaced by one of such a kind. -/
  | element {v : Value} {i : Nat} (isArray : f.isArray = true)
      (refused : f.type.accepts v.kind = false)
      (replaced : (Step.ofElement f i).Replaced entries entries' v) :
    Damage f entries entries' (.ofElement f i) (.typeMismatch f.label f.type v.kind)

/-! ### Nothing else is at fault -/

section OneLevel

variable {f : Field} {step : Step} {payload payload' : Payload} {v : Value}
  {cause e leaf : ValidationError}

/-- What is replaced at a step is replaced at its label. -/
theorem Step.Replaced.agree (h : step.Replaced payload payload' v) :
    AgreeExcept step.label payload payload' := by
  rcases h with ⟨hagree, -⟩ | ⟨hagree, -⟩
  · exact hagree
  · exact hagree

/-- A field whose label has not been touched is checked as before. -/
theorem checkField_eq_of_agreeExcept {label : String} (hagree : AgreeExcept label payload payload')
    (hne : f.label ≠ label) : checkField f payload' = checkField f payload := by
  rw [checkField_eq, checkField_eq, hagree f.label hne]

/-- **One field of a level is at fault**: if the rest of a payload that passes stays as it was,
the fault of that field is the error of the whole, since no other field has its label. -/
theorem check_eq_error_of_agreeExcept {schema : Schema}
    (hnodup : (schema.map Field.label).Nodup) (hok : check schema payload = .ok ())
    (hf : f ∈ schema) (hagree : AgreeExcept f.label payload payload')
    (he : checkField f payload' = .error e) : check schema payload' = .error e := by
  obtain ⟨before, after, rfl⟩ := List.append_of_mem hf
  refine check_eq_error_iff.mpr ⟨before, f, after, rfl, fun g hg => ?_, he⟩
  rw [List.map_append, List.map_cons, List.nodup_append] at hnodup
  have hne : g.label ≠ f.label :=
    hnodup.2.2 _ (List.mem_map_of_mem hg) _ List.mem_cons_self
  rw [checkField_eq_of_agreeExcept hagree hne]
  exact check_eq_ok_iff.mp hok g (List.mem_append_left _ hg)

/-- A value that passes at a field and is replaced by one that does not is the fault of the
field. If it is an element of an array, all others pass as before. -/
theorem Step.Replaced.checkField_eq_error (hlabel : step.label = f.label)
    (harray : f.isArray = step.index.isSome) (hok : checkField f payload = .ok ())
    (hreplaced : step.Replaced payload payload' v) (hone : checkOne f v = .error cause) :
    checkField f payload' = .error (step.wrapElement cause) := by
  rcases hreplaced with ⟨-, hget⟩ | ⟨-, hget, hlt, hget'⟩
  · exact checkField_eq_error_iff.mpr
      (.atValue (hlabel ▸ hget) harray (checkValue_eq_error_iff.mp hone))
  · rename_i label i items
    obtain rfl : label = f.label := hlabel
    have hitems : ∀ w ∈ items, checkOne f w = .ok () := by
      rcases checkField_eq_ok_iff.mp hok with ⟨hnone, -⟩ | ⟨w, -, hno, -⟩ | ⟨items', hsome, -, -, h⟩
      · rw [hget] at hnone
        cases hnone
      · rw [harray] at hno
        cases hno
      · rw [hget] at hsome
        obtain rfl := Value.list.inj (Option.some.inj hsome)
        exact h
    have hset : items.set i v = items.take i ++ v :: items.drop (i + 1) :=
      List.set_eq_take_append_cons_drop.trans (if_pos hlt)
    have hlength : (items.take i).length = i := List.length_take_of_le (Nat.le_of_lt hlt)
    have hfault : ArrayFault f.label f.type f.required (checkOne f) (.list (items.set i v))
        (.invalidArrayElement f.label (items.take i).length cause) :=
      .atElement (congrArg Value.list hset) (fun u hu => hitems u (List.mem_of_mem_take hu)) hone
    rw [hlength] at hfault
    exact checkField_eq_error_iff.mpr (.atArray hget' harray hfault)

/-- **A damage is the fault of its field**, if the type of the field is recognised. -/
theorem Damage.checkField_eq_error (h : Damage f payload payload' step leaf)
    (hknown : f.type.isKnown = true) (hok : checkField f payload = .ok ()) :
    checkField f payload' = .error (step.wrapElement leaf) := by
  rcases h with ⟨hrequired, -, hget⟩ | ⟨hrequired, harray, hreplaced⟩ |
    ⟨harray, hkind, hreplaced⟩ | ⟨hone, hrefused, hreplaced⟩ | ⟨harray, hrefused, hreplaced⟩
  · exact checkField_eq_error_iff.mpr (.absent hget hrequired)
  · obtain ⟨-, hget⟩ := hreplaced
    exact checkField_eq_error_iff.mpr (.atArray hget harray (.empty rfl hrequired))
  · obtain ⟨-, hget⟩ := hreplaced
    exact checkField_eq_error_iff.mpr (.atArray hget harray (.noList hkind))
  · exact hreplaced.checkField_eq_error rfl hone hok (checkValue_of_refused hknown hrefused)
  · exact hreplaced.checkField_eq_error rfl harray hok (checkValue_of_refused hknown hrefused)

/-- A damage is done at the label of its field, and nowhere else. -/
theorem Damage.agree (h : Damage f payload payload' step leaf) :
    AgreeExcept f.label payload payload' := by
  rcases h with ⟨-, hagree, -⟩ | ⟨-, -, hreplaced⟩ | ⟨-, -, hreplaced⟩ | ⟨-, -, hreplaced⟩ |
    ⟨-, -, hreplaced⟩
  · exact hagree
  all_goals exact hreplaced.agree

/-- The step of a damage has the label of the field, which is the label of the fault; and the
fault wraps nothing. -/
theorem Damage.label_eq (h : Damage f payload payload' step leaf) :
    step.label = f.label ∧ leaf.ownLabel = f.label ∧ leaf.isWrapper = false := by
  cases h <;> exact ⟨rfl, rfl, rfl⟩

/-- The step of a damage can be taken before it is done. -/
theorem Damage.fits (h : Damage f payload payload' step leaf) : step.Fits f payload := by
  cases h with
  | element harray _ hreplaced =>
    cases hreplaced with
    | atElement _ hget hlt => exact ⟨rfl, fun i hi => ⟨harray, _, hget, Option.some.inj hi ▸ hlt⟩⟩
  | _ => exact Step.fits_ofField f payload

/-- A map that a step finds in a payload that passes has passed: the step has an index exactly
if the field is an array. -/
theorem Step.Fits.checkOne_of_find? {entries : Payload} (hfits : step.Fits f payload)
    (hok : checkField f payload = .ok ()) (hfind : step.find? payload = some (.map entries)) :
    f.isArray = step.index.isSome ∧ checkOne f (.map entries) = .ok () := by
  obtain ⟨label, index⟩ := step
  obtain rfl : label = f.label := hfits.label_eq
  cases index with
  | none =>
    have hget : Keyed.get? f.label payload = some (.map entries) := hfind
    rcases checkField_eq_ok_iff.mp hok with ⟨hnone, -⟩ | ⟨v, hsome, hone, hv⟩ | ⟨items, hsome, -⟩
    · rw [hget] at hnone
      cases hnone
    · rw [hget] at hsome
      obtain rfl := Option.some.inj hsome
      exact ⟨hone, hv⟩
    · rw [hget] at hsome
      cases hsome
  | some i =>
    obtain ⟨harray, items, hget, -⟩ := hfits.index_lt i rfl
    have hmem : Value.map entries ∈ items := by
      rw [Step.find?, hget] at hfind
      exact List.mem_of_getElem? hfind
    rcases checkField_eq_ok_iff.mp hok with ⟨hnone, -⟩ | ⟨v, -, hone, -⟩ | ⟨items', hsome, -, -, h⟩
    · rw [hget] at hnone
      cases hnone
    · rw [harray] at hone
      cases hone
    · rw [hget] at hsome
      obtain rfl := Value.list.inj (Option.some.inj hsome)
      exact ⟨harray, h _ hmem⟩

end OneLevel

/-! ### The main statement -/

variable {schema level : Schema} {ceiling : Int32} {payload payload' entries entries' : Payload}
  {steps : List Step} {last : Step} {f : Field} {leaf : ValidationError}

/-- **The error after a single damage** is the damage, wrapped along the steps to its place. -/
theorem check_eq_error_of_damage (hschema : Schema.check schema ceiling = .ok ())
    (hpayload : check schema payload = .ok ()) (hleads : Leads schema payload steps level entries)
    (hf : f ∈ level) (hdiffer : DifferBehind payload payload' steps entries entries')
    (hdamage : Damage f entries entries' last leaf) :
    check schema payload' = .error (wrap steps last leaf) := by
  induction hleads generalizing payload' ceiling with
  | here =>
    cases hdiffer
    obtain ⟨-, hlevel, -⟩ := Schema.check_eq_ok_iff.mp hschema
    exact check_eq_error_of_agreeExcept hlevel.nodup_labels hpayload hf hdamage.agree
      (hdamage.checkField_eq_error (hlevel.isKnown_type f hf) (check_eq_ok_iff.mp hpayload f hf))
  | @into schema payload step g between steps level reached hg hfits hobject hfind hbelow ih =>
    cases hdiffer with
    | into hfind' hreplaced hdiffer =>
      obtain rfl := Value.map.inj (Option.some.inj (hfind.symm.trans hfind'))
      obtain ⟨-, hlevel, hchildren⟩ := Schema.check_eq_ok_iff.mp hschema
      have hfield := check_eq_ok_iff.mp hpayload g hg
      obtain ⟨harray, hmap⟩ := hfits.checkOne_of_find? hfield hfind
      -- the map found here passes against the children, so the damage below is its one fault
      have hnested := ih (hchildren g hg hobject)
        ((checkValue_eq_ok_iff.mp hmap).2 _ hobject rfl) hf hdiffer hdamage
      have hone : checkOne g (.map _) = .error (.invalidObject g.label (wrap steps last leaf)) :=
        checkValue_eq_error_iff.mpr (.object hobject rfl hnested)
      refine check_eq_error_of_agreeExcept hlevel.nodup_labels hpayload hg
        (hfits.label_eq ▸ hreplaced.agree) ?_
      rw [← hfits.label_eq] at hone
      exact hreplaced.checkField_eq_error hfits.label_eq harray hfield hone

/-- **A single damage is reported exactly where it was done.** A schema has passed its own
check, a payload passes against it, and declared labels and indices lead to a map in the
payload. Another payload differs from it only in what this map has at one declared field: a
required field is removed, a required array emptied, the value of an array field is no list any
more, or the value of another field or one element of an array is of a kind that the declared
type does not accept. Then the check fails, the root cause is the damage, with the declared
type and the kind of the new value, and the path is how its place is written. -/
theorem check_damaged_points_at_damage (hschema : Schema.check schema ceiling = .ok ())
    (hpayload : check schema payload = .ok ()) (hleads : Leads schema payload steps level entries)
    (hf : f ∈ level) (hdiffer : DifferBehind payload payload' steps entries entries')
    (hdamage : Damage f entries entries' last leaf) :
    ∃ e, check schema payload' = .error e ∧ e.rootCause = leaf ∧
      e.fieldPath = renderPath (steps ++ [last]) := by
  obtain ⟨hlast, hlabel, hleaf⟩ := hdamage.label_eq
  refine ⟨_, check_eq_error_of_damage hschema hpayload hleads hf hdiffer hdamage,
    rootCause_wrap steps last hleaf, fieldPath_wrap hleaf (hlabel.trans hlast.symm) ?_⟩
  obtain ⟨-, hroot, -⟩ := Schema.check_eq_ok_iff.mp hschema
  exact hleads.render_first_ne_empty hroot.label_ne_empty hf hdamage.fits

/-! ### A damaged table -/

/-- A row of cells. -/
def rowsOfCells : Field := ⟨"rows", .object, true, true, [⟨"cells", .int, true, true, []⟩]⟩

/-- Two rows of integers. -/
def filledRows : Payload :=
  [("rows", .list [.map [("cells", .list [.integer 1])],
    .map [("cells", .list [.integer 2, .integer 3])]])]

/-- The same, with a text for the last cell. -/
def spoiltRows : Payload :=
  [("rows", .list [.map [("cells", .list [.integer 1])],
    .map [("cells", .list [.integer 2, .string "3"])]])]

/-- The text is found in the second cell of the second row. -/
theorem check_damaged_points_at_damage_spoilt :
    let steps : List Step := [⟨"rows", some 1⟩]
    let entries : Payload := [("cells", .list [.integer 2, .integer 3])]
    let entries' : Payload := [("cells", .list [.integer 2, .string "3"])]
    Schema.check [rowsOfCells] 1 = .ok () ∧ check [rowsOfCells] filledRows = .ok () ∧
      Leads [rowsOfCells] filledRows steps rowsOfCells.children entries ∧
      DifferBehind filledRows spoiltRows steps entries entries' ∧
      Damage rowsOfCells.children[0] entries entries' ⟨"cells", some 1⟩
        (.typeMismatch "cells" .int .string) ∧
      ∃ e, check [rowsOfCells] spoiltRows = .error e ∧
        e.rootCause = .typeMismatch "cells" .int .string ∧
        e.fieldPath = renderPath [⟨"rows", some 1⟩, ⟨"cells", some 1⟩] := by
  intro steps entries entries'
  have hschema : Schema.check [rowsOfCells] 1 = .ok () := rfl
  have hpayload : check [rowsOfCells] filledRows = .ok () := rfl
  have hfits : Step.Fits ⟨"rows", some 1⟩ rowsOfCells filledRows :=
    ⟨rfl, fun i hi => ⟨rfl, _, rfl, Option.some.inj hi ▸ by decide⟩⟩
  have hleads : Leads [rowsOfCells] filledRows steps rowsOfCells.children entries :=
    .into List.mem_cons_self hfits rfl rfl .here
  have hdiffer : DifferBehind filledRows spoiltRows steps entries entries' := by
    refine .into rfl (.atElement (fun key hkey => ?_) rfl (by decide) rfl) .here
    simp [filledRows, spoiltRows, Keyed.get?, Ne.symm hkey]
  have hdamage : Damage rowsOfCells.children[0] entries entries' ⟨"cells", some 1⟩
      (.typeMismatch "cells" .int .string) := by
    refine .element (v := .string "3") rfl rfl ?_
    refine .atElement (fun key hkey => ?_) rfl (by decide) rfl
    have hne : "cells" ≠ key := Ne.symm hkey
    simp [entries, entries', Keyed.get?, hne]
  exact ⟨hschema, hpayload, hleads, hdiffer, hdamage,
    check_damaged_points_at_damage hschema hpayload hleads List.mem_cons_self hdiffer hdamage⟩

end Payload

end ConfigSchema
