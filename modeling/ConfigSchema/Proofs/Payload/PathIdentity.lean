import ConfigSchema.Proofs.Payload.Blame
import Mathlib.Data.List.Nodup

/-!
# Paths that tell places apart

The path of an error is written without escapes: labels are joined by dots, and an index stands in
brackets. A schema may declare any label that is not empty, so a label can have a dot in it, or end
as a label with an index does, and then two places can be written alike
(`ConfigSchema.Payload.fieldPath_eq_at_two_places`).

A *plain* label does neither (`ConfigSchema.Payload.PlainLabel`). A label that is nothing but an
index in brackets is plain: it could only be taken for an empty label with an index, and a schema
that has passed its check has no empty label. Steps with plain labels are read back from how they
are written: none of them has a dot, so the dots of the path are the ones that join them, and
whether a step has an index, and which one, is seen at its end
(`ConfigSchema.Payload.eq_of_renderPath_eq`). And steps lead to one level of a schema that has
passed its check, whatever the payload is. Hence two errors of one schema with plain labels and one
path stand at one place (`ConfigSchema.Payload.samePlace_of_fieldPath_eq`).
-/

namespace ConfigSchema

namespace Payload

/-! ### Plain labels -/

/-- **A label is plain** if it has no dot, and is not how a label with an index is written. -/
structure PlainLabel (label : String) : Prop where
  /-- There is no dot in it. -/
  dot_notMem : '.' ∉ label.toList
  /-- It is no shorter label, other than the empty one, with an index in brackets behind it. -/
  ne_indexed : ∀ (shorter : String) (i : Nat), shorter ≠ "" →
    label ≠ shorter ++ "[" ++ toString i ++ "]"

/-- A label without dots and closing brackets is plain. -/
theorem plainLabel_of_notMem {label : String} (hdot : '.' ∉ label.toList)
    (hbracket : ']' ∉ label.toList) : PlainLabel label := by
  refine ⟨hdot, fun shorter i _ h => hbracket ?_⟩
  rw [h, String.toList_append]
  exact List.mem_append_right _ List.mem_cons_self

/-! ### Steps that are read back -/

/-- The digits of a number are neither dots nor brackets. -/
theorem notMem_toList_toString {c : Char} (hc : c.isDigit = false) (n : Nat) :
    c ∉ (toString n).toList := by
  intro h
  have hdigit : c ∈ Nat.toDigits 10 n := by rwa [← Nat.toList_repr]
  rw [Nat.isDigit_of_mem_toDigits (by decide) (by decide) hdigit] at hc
  cases hc

/-- Two texts that end behind their last bracket with equal texts are equal up to it. -/
theorem append_cons_inj {c : Char} {xs xs' ys ys' : List Char} (hys : c ∉ ys) (hys' : c ∉ ys')
    (h : xs ++ c :: ys = xs' ++ c :: ys') : xs = xs' ∧ ys = ys' := by
  rcases List.append_eq_append_iff.mp h with ⟨zs, rfl, hzs⟩ | ⟨zs, rfl, hzs⟩ <;>
    rcases zs with _ | ⟨d, zs⟩
  · exact ⟨(List.append_nil _).symm, (List.cons.inj hzs).2⟩
  · obtain ⟨rfl, rfl⟩ := List.cons.inj hzs
    exact absurd (List.mem_append_right _ List.mem_cons_self) hys
  · exact ⟨List.append_nil _, (List.cons.inj hzs).2.symm⟩
  · obtain ⟨rfl, rfl⟩ := List.cons.inj hzs
    exact absurd (List.mem_append_right _ List.mem_cons_self) hys'

namespace Step

/-- **A step is plain** if its label is, and is not empty. -/
structure IsPlain (step : Step) : Prop where
  /-- There is something in the label. -/
  label_ne_empty : step.label ≠ ""
  /-- The label is plain. -/
  plainLabel : PlainLabel step.label

variable {step step' : Step}

/-- How a step with an index is written, character by character. -/
theorem toList_render_of_index {i : Nat} (h : step.index = some i) :
    step.render.toList = step.label.toList ++ '[' :: (toString i).toList ++ [']'] := by
  rw [render, h]
  simp [String.toList_append]

/-- A plain step is written without dots. -/
theorem IsPlain.dot_notMem_render (hplain : step.IsPlain) : '.' ∉ step.render.toList := by
  cases hindex : step.index with
  | none =>
    rw [render, hindex]
    exact hplain.plainLabel.dot_notMem
  | some i =>
    rw [toList_render_of_index hindex]
    have hdigits : '.' ∉ (toString i).toList := notMem_toList_toString rfl i
    simp only [List.mem_append, List.mem_cons, List.not_mem_nil, or_false, not_or]
    exact ⟨⟨hplain.plainLabel.dot_notMem, by decide, hdigits⟩, by decide⟩

/-- **A plain step is read back** from how it is written. -/
theorem IsPlain.eq_of_render_eq (hplain : step.IsPlain) (hplain' : step'.IsPlain)
    (h : step.render = step'.render) : step = step' := by
  obtain ⟨label, index⟩ := step
  obtain ⟨label', index'⟩ := step'
  cases index with
  | none =>
    cases index' with
    | none =>
      obtain rfl : label = label' := h
      rfl
    | some j => exact absurd h (hplain.plainLabel.ne_indexed label' j hplain'.label_ne_empty)
  | some i =>
    cases index' with
    | none => exact absurd h.symm (hplain'.plainLabel.ne_indexed label i hplain.label_ne_empty)
    | some j =>
      have hlist := congrArg String.toList h
      rw [toList_render_of_index rfl, toList_render_of_index rfl] at hlist
      obtain ⟨hlabel, hindex⟩ := append_cons_inj (notMem_toList_toString rfl i)
        (notMem_toList_toString rfl j) (List.append_cancel_right hlist)
      obtain rfl : label = label' := String.toList_inj.mp hlabel
      obtain rfl := eq_of_toString_eq (String.toList_inj.mp hindex)
      rfl

end Step

/-- **Plain steps are read back** from how they are written. -/
theorem eq_of_renderPath_eq {steps steps' : List Step} (hne : steps ≠ []) (hne' : steps' ≠ [])
    (hplain : ∀ step ∈ steps, step.IsPlain) (hplain' : ∀ step ∈ steps', step.IsPlain)
    (h : renderPath steps = renderPath steps') : steps = steps' := by
  have hsplit : ∀ steps : List Step, steps ≠ [] → (∀ step ∈ steps, step.IsPlain) →
      (renderPath steps).toList.splitOn '.' = steps.map fun step => step.render.toList := by
    intro steps hne hplain
    rw [renderPath, String.toList_intercalate, List.map_map]
    refine List.splitOn_intercalate '.' (fun cs hcs => ?_) (by simpa using hne)
    obtain ⟨step, hstep, rfl⟩ := List.mem_map.mp hcs
    exact (hplain step hstep).dot_notMem_render
  have hmap : steps.map (fun step => step.render.toList) =
      steps'.map fun step => step.render.toList := by
    rw [← hsplit steps hne hplain, ← hsplit steps' hne' hplain', h]
  clear hsplit h hne hne'
  induction steps generalizing steps' with
  | nil => exact (List.map_eq_nil_iff.mp hmap.symm).symm
  | cons step steps ih =>
    cases steps' with
    | nil => cases hmap
    | cons step' steps' =>
      obtain ⟨hhead, htail⟩ := List.cons.inj hmap
      obtain ⟨hstep, hsteps⟩ := List.forall_mem_cons.mp hplain
      obtain ⟨hstep', hsteps'⟩ := List.forall_mem_cons.mp hplain'
      rw [hstep.eq_of_render_eq hstep' (String.toList_inj.mp hhead), ih hsteps hsteps' htail]

/-! ### One place -/

variable {schema level level' : Schema} {payload payload' entries entries' : Payload}
  {steps : List Step}

/-- Two fields of a well-formed level with one label are one field. -/
theorem field_eq_of_label_eq (hlevel : Schema.LevelWellFormed level) {f g : Field} (hf : f ∈ level)
    (hg : g ∈ level) (h : f.label = g.label) : f = g :=
  List.inj_on_of_nodup_map hlevel.nodup_labels hf hg h

/-- **Steps lead to one level**, whatever the payloads are, if the levels of the schema are well
formed. -/
theorem Leads.level_eq (hlevels : ∀ level, Schema.Reaches schema level →
      Schema.LevelWellFormed level)
    (h : Leads schema payload steps level entries)
    (h' : Leads schema payload' steps level' entries') : level = level' := by
  induction h generalizing payload' with
  | here =>
    cases h'
    rfl
  | into hf hfits hobject _ _ ih =>
    cases h' with
    | into hg hfits' _ _ hbelow' =>
      obtain ⟨hroot, hbelow⟩ := Schema.forall_reaches_iff.mp hlevels
      obtain rfl := field_eq_of_label_eq hroot hf hg (hfits.label_eq.symm.trans hfits'.label_eq)
      exact ih (hbelow _ hf hobject) hbelow'

/-- Steps have labels of the schema, which are not empty if its levels are well formed. -/
theorem Leads.label_ne_empty (hlevels : ∀ level, Schema.Reaches schema level →
      Schema.LevelWellFormed level)
    (h : Leads schema payload steps level entries) : ∀ step ∈ steps, step.label ≠ "" := by
  induction h with
  | here => exact fun _ hstep => by cases hstep
  | into hf hfits hobject _ _ ih =>
    obtain ⟨hroot, hbelow⟩ := Schema.forall_reaches_iff.mp hlevels
    refine List.forall_mem_cons.mpr ⟨?_, ih (hbelow _ hf hobject)⟩
    rw [hfits.label_eq]
    exact hroot.label_ne_empty _ hf

/-- An error that wraps nothing stands in its own chain. -/
theorem mem_chain_of_not_isWrapper {e : ValidationError} (h : e.isWrapper = false) :
    e ∈ e.chain := by
  cases e with
  | invalidArrayElement => cases h
  | invalidObject => cases h
  | _ => exact List.mem_cons_self

/-- The labels of the steps to the place of an error stand in its chain. -/
theorem exists_mem_chain_wrap {last : Step} {leaf : ValidationError}
    (hleaf : leaf.isWrapper = false) (hlabel : leaf.ownLabel = last.label) :
    ∀ step ∈ steps ++ [last], ∃ cause ∈ (wrap steps last leaf).chain,
      cause.ownLabel = step.label := by
  have helement : ∀ (step : Step) (inner cause : ValidationError), cause ∈ inner.chain →
      cause ∈ (step.wrapElement inner).chain := by
    rintro ⟨label, index⟩ inner cause hcause
    cases index with
    | none => exact hcause
    | some i => exact List.mem_cons_of_mem _ hcause
  induction steps with
  | nil =>
    intro step hstep
    obtain rfl := List.mem_singleton.mp hstep
    exact ⟨leaf, helement step leaf leaf (mem_chain_of_not_isWrapper hleaf), hlabel⟩
  | cons first steps ih =>
    intro step hstep
    rcases List.mem_cons.mp hstep with rfl | hstep
    · exact ⟨_, helement step _ _ List.mem_cons_self, rfl⟩
    · obtain ⟨cause, hcause, hlabel⟩ := ih step hstep
      exact ⟨cause, helement first _ _ (List.mem_cons_of_mem _ hcause), hlabel⟩

/-- **Two errors stand at one place**: the same steps lead to both, and to one field of one level
of the schema. -/
def SamePlace (schema : Schema) (payload payload' : Payload) (e e' : ValidationError) : Prop :=
  ∃ (steps : List Step) (last : Step) (level : Schema) (f : Field),
    (∃ entries leaf, Located schema payload e steps last level entries f leaf) ∧
      ∃ entries leaf, Located schema payload' e' steps last level entries f leaf

variable {e e' : ValidationError}

section Located

variable {last : Step} {f : Field} {leaf : ValidationError}

/-- The fault at a place carries the label of the last step. -/
theorem Located.ownLabel_eq (h : Located schema payload e steps last level entries f leaf) :
    leaf.ownLabel = last.label :=
  h.fault.ownLabel_eq.trans h.fits.label_eq.symm

/-- The steps to a place are plain if the labels in the chain of the error are, and the levels of
the schema are well formed. -/
theorem Located.isPlain (h : Located schema payload e steps last level entries f leaf)
    (hlevels : ∀ level, Schema.Reaches schema level → Schema.LevelWellFormed level)
    (hplain : ∀ cause ∈ e.chain, PlainLabel cause.ownLabel) :
    ∀ step ∈ steps ++ [last], step.IsPlain := by
  have hlast : last.label ≠ "" := by
    rw [h.fits.label_eq]
    exact (hlevels level h.leads.reaches).label_ne_empty f h.mem
  have hlabels : ∀ step ∈ steps ++ [last], step.label ≠ "" := fun step hstep =>
    (List.mem_append.mp hstep).elim (h.leads.label_ne_empty hlevels step) fun hmem =>
      List.mem_singleton.mp hmem ▸ hlast
  intro step hstep
  refine ⟨hlabels step hstep, ?_⟩
  obtain ⟨cause, hcause, hown⟩ :=
    exists_mem_chain_wrap h.fault.isWrapper_eq_false h.ownLabel_eq step hstep
  rw [← hown]
  exact hplain cause (h.eq_wrap ▸ hcause)

/-- The path of an error is how the steps to its place are written, if the schema has no empty
label at its root. -/
theorem Located.fieldPath_eq (h : Located schema payload e steps last level entries f leaf)
    (hschema : ∀ g ∈ schema, g.label ≠ "") : e.fieldPath = renderPath (steps ++ [last]) := by
  rw [h.eq_wrap,
    fieldPath_wrap h.fault.isWrapper_eq_false h.ownLabel_eq (h.render_first_ne_empty hschema)]

end Located

/-- **A path with plain labels tells the place.** If two payloads fail against one schema that has
passed its check, with errors that have the same path, and no label of the errors has a dot or
ends as a label with an index does, then both errors stand at one place: the same labels and
indices lead to it from the root, in both payloads, and to the same field of the schema. -/
theorem samePlace_of_fieldPath_eq {ceiling : Int32}
    (hschema : Schema.check schema ceiling = .ok ()) (h : check schema payload = .error e)
    (h' : check schema payload' = .error e')
    (hplain : ∀ cause ∈ e.chain, PlainLabel cause.ownLabel)
    (hplain' : ∀ cause ∈ e'.chain, PlainLabel cause.ownLabel)
    (hpath : e.fieldPath = e'.fieldPath) : SamePlace schema payload payload' e e' := by
  have hlevels := (Schema.check_eq_ok_iff_reaches.mp hschema).2
  have hlabels := (hlevels schema .root).label_ne_empty
  obtain ⟨steps, last, level, entries, f, leaf, hplace⟩ := exists_located_of_check_eq_error h
  obtain ⟨steps', last', level', entries', f', leaf', hplace'⟩ :=
    exists_located_of_check_eq_error h'
  rw [hplace.fieldPath_eq hlabels, hplace'.fieldPath_eq hlabels] at hpath
  have hsteps : steps ++ [last] = steps' ++ [last'] :=
    eq_of_renderPath_eq (by simp) (by simp) (hplace.isPlain hlevels hplain)
      (hplace'.isPlain hlevels hplain') hpath
  obtain ⟨rfl, hlast⟩ := List.append_inj' hsteps rfl
  obtain rfl := List.singleton_inj.mp hlast
  -- the steps agree; so do the level they lead to and, by its label, the field that is meant
  obtain rfl := hplace.leads.level_eq hlevels hplace'.leads
  have hlabel : f.label = f'.label := hplace.fits.label_eq.symm.trans hplace'.fits.label_eq
  obtain rfl :=
    field_eq_of_label_eq (hlevels level hplace.leads.reaches) hplace.mem hplace'.mem hlabel
  exact ⟨steps, last, level, f, ⟨entries, leaf, hplace⟩, ⟨entries', leaf', hplace'⟩⟩

/-- A payload that has a flag where the second inner object wants a number. -/
def flagInSecond : Payload :=
  [("x", .list [.map [("x", .list [.map [("y", .integer 1)], .map [("y", .boolean true)]])]])]

/-- A field that is absent and a value that does not suit it stand at one place. -/
theorem samePlace_of_fieldPath_eq_nestedArrays :
    let wrapped (leaf : ValidationError) : ValidationError := .invalidArrayElement "x" 0
      (.invalidObject "x" (.invalidArrayElement "x" 1 (.invalidObject "x" leaf)))
    let e := wrapped (.missingRequiredField "y")
    let e' := wrapped (.typeMismatch "y" .int .boolean)
    Schema.check nestedArrays 3 = .ok () ∧ check nestedArrays lackingSecond = .error e ∧
      check nestedArrays flagInSecond = .error e' ∧
      (∀ cause ∈ e.chain, PlainLabel cause.ownLabel) ∧
      (∀ cause ∈ e'.chain, PlainLabel cause.ownLabel) ∧ e.fieldPath = e'.fieldPath ∧
      SamePlace nestedArrays lackingSecond flagInSecond e e' := by
  intro wrapped e e'
  have hx : PlainLabel "x" := plainLabel_of_notMem (by decide) (by decide)
  have hy : PlainLabel "y" := plainLabel_of_notMem (by decide) (by decide)
  have hplain : ∀ cause ∈ e.chain, PlainLabel cause.ownLabel := by
    simp [e, wrapped, ValidationError.chain, ValidationError.ownLabel, hx, hy]
  have hplain' : ∀ cause ∈ e'.chain, PlainLabel cause.ownLabel := by
    simp [e', wrapped, ValidationError.chain, ValidationError.ownLabel, hx, hy]
  have hschema : Schema.check nestedArrays 3 = .ok () := rfl
  exact ⟨hschema, rfl, rfl, hplain, hplain', rfl,
    samePlace_of_fieldPath_eq hschema rfl rfl hplain hplain' rfl⟩

/-! ### Two places with one path -/

/-- An error that wraps nothing does not stand where an error stands that wraps another. -/
theorem not_samePlace_of_isWrapper (h : e.isWrapper = true) (h' : e'.isWrapper = false) :
    ¬ SamePlace schema payload payload' e e' := by
  rintro ⟨steps, last, level, f, ⟨entries, leaf, hplace⟩, entries', leaf', hplace'⟩
  have hsteps : steps = [] ∧ last.index = none := by
    rw [hplace'.eq_wrap] at h'
    cases steps with
    | nil =>
      cases hindex : last.index with
      | none => exact ⟨rfl, rfl⟩
      | some i =>
        rw [wrap, List.foldr_nil, Step.wrapElement, hindex] at h'
        cases h'
    | cons step steps =>
      rw [wrap, List.foldr_cons, Step.wrapMap, Step.wrapElement] at h'
      split at h' <;> cases h'
  obtain ⟨rfl, hindex⟩ := hsteps
  have hleaf : e = leaf := by
    rw [hplace.eq_wrap, wrap, List.foldr_nil, Step.wrapElement, hindex]
  rw [hleaf, hplace.fault.isWrapper_eq_false] at h
  cases h

/-- **Without plain labels a path does not tell the place.** A label with a dot is written as two
labels are, and a label that ends in brackets as a label with an index. Both schemas pass their
check; in each, a fault below the first field and a fault at the second have one path. -/
theorem fieldPath_eq_at_two_places :
    (let schema : Schema := [⟨"a", .object, false, false, [⟨"b", .int, true, false, []⟩]⟩,
        ⟨"a.b", .int, true, false, []⟩]
      let payload : Payload := [("a", .map []), ("a.b", .integer 1)]
      let payload' : Payload := [("a", .map [("b", .integer 1)])]
      let e : ValidationError := .invalidObject "a" (.missingRequiredField "b")
      let e' : ValidationError := .missingRequiredField "a.b"
      Schema.check schema 5 = .ok () ∧ check schema payload = .error e ∧
        check schema payload' = .error e' ∧ e.fieldPath = e'.fieldPath ∧
        ¬ SamePlace schema payload payload' e e') ∧
    (let schema : Schema := [⟨"x", .int, false, true, []⟩, ⟨"x[0]", .int, true, false, []⟩]
      let payload : Payload := [("x", .list [.boolean true]), ("x[0]", .integer 1)]
      let payload' : Payload := []
      let e : ValidationError := .invalidArrayElement "x" 0 (.typeMismatch "x" .int .boolean)
      let e' : ValidationError := .missingRequiredField "x[0]"
      Schema.check schema 5 = .ok () ∧ check schema payload = .error e ∧
        check schema payload' = .error e' ∧ e.fieldPath = e'.fieldPath ∧
        ¬ SamePlace schema payload payload' e e') := by
  refine ⟨⟨rfl, rfl, rfl, ?_, ?_⟩, ⟨rfl, rfl, rfl, ?_, ?_⟩⟩
  · decide
  · exact not_samePlace_of_isWrapper rfl rfl
  · decide
  · exact not_samePlace_of_isWrapper rfl rfl

end Payload

end ConfigSchema
