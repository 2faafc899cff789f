import ConfigSchema.Proofs.Schema.Verdict

/-!
# The error of a schema is its first fault

A schema may be at fault in many places at once: labels that are empty or occur twice, types
that are not recognised, levels beyond the ceiling. The check reports the one that comes first
in the order in which a reader meets them, top down and depth first. This is said here without
the walk: from the root one goes down through `object` fields, and whatever stands before such
a field on its level passes, with all that lies below it (`ConfigSchema.Schema.Descends`); the
level that is reached either is one level too deep or has a first field that is at fault
(`ConfigSchema.Schema.FirstFault`).

The wrappers of the error are the labels on the way, and its path is these labels
(`ConfigSchema.Schema.check_error_is_first_fault`).
-/

namespace ConfigSchema

namespace SchemaError

/-- The error wraps another one. -/
def isWrapper : SchemaError → Bool
  | .invalidField .. => true
  | _ => false

/-- A cause, wrapped by labels of which the first one is outermost. -/
def wrap (labels : List String) (cause : SchemaError) : SchemaError :=
  labels.foldr .invalidField cause

variable {cause : SchemaError}

/-- The cause that has been wrapped is the root cause. -/
theorem rootCause_wrap (labels : List String) (h : cause.isWrapper = false) :
    (wrap labels cause).rootCause = cause := by
  induction labels with
  | nil =>
    cases cause with
    | invalidField => cases h
    | _ => rfl
  | cons label labels ih => exact ih

/-- The labels with which it has been wrapped are the labels of the wrappers. -/
theorem labels_wrap (labels : List String) (h : cause.isWrapper = false) :
    (wrap labels cause).labels = labels := by
  induction labels with
  | nil =>
    cases cause with
    | invalidField => cases h
    | _ => rfl
  | cons label labels ih => exact congrArg (label :: ·) ih

end SchemaError

namespace Schema

variable {schema level : Schema} {ceiling remaining : Int32} {f : Field} {e cause : SchemaError}
  {position : Nat} {positions : List Nat} {labels : List String}

/-! ### The way to the fault -/

/-- **The field at a position of a level is the first that need not pass**: all fields before it
do. -/
structure PassBefore (level : Schema) (remaining : Int32) (position : Nat) (f : Field) : Prop where
  /-- The field stands at the position. -/
  get_eq : level[position]? = some f
  /-- The fields before it pass. -/
  pass : Pass (level.take position) remaining

/-- **One goes down from a level**, with levels that may still follow: at each position stands
an `object` field whose label is the next one, not empty and not that of a field before it; all
fields before it pass; and its children are the level below. -/
inductive Descends : Schema → Int32 → List Nat → List String → Schema → Int32 → Prop
  /-- One stays on the level. -/
  | here {level : Schema} {remaining : Int32} : Descends level remaining [] [] level remaining
  /-- One goes through a field, and further down from there. -/
  | into {level : Schema} {remaining : Int32} {position : Nat} {f : Field}
      {positions : List Nat} {labels : List String} {reached : Schema} {remaining' : Int32}
      (before : PassBefore level remaining position f) (label_ne : f.label ≠ "")
      (label_new : ∀ g ∈ level.take position, g.label ≠ f.label) (isObject : f.type = .object)
      (below : Descends f.children (remaining - 1) positions labels reached remaining') :
    Descends level remaining (position :: positions) (f.label :: labels) reached remaining'

/-- **The first fault of a level**: a field is at fault for its label or its type, and all
fields before it pass. -/
inductive FirstFault (level : Schema) (remaining : Int32) : SchemaError → Prop
  /-- The field, and the labels that stand before it. -/
  | field {position : Nat} {f : Field} {cause : SchemaError}
      (before : PassBefore level remaining position f)
      (fault : OwnFault ((level.take position).map Field.label) f cause) :
    FirstFault level remaining cause

/-- What a field is at fault for on its own wraps nothing, and is not the depth. -/
theorem OwnFault.ne {seen : List String} (h : OwnFault seen f e) :
    e.isWrapper = false ∧ e ≠ .depthExceeded := by
  cases h <;> exact ⟨rfl, by simp⟩

theorem FirstFault.ne (h : FirstFault level remaining cause) :
    cause.isWrapper = false ∧ cause ≠ .depthExceeded := by
  cases h with
  | field before fault => exact fault.ne

/-- A level that is split at a field has it at the position behind the first part. -/
theorem passBefore_of_append {before after : List Field} (h : Pass before remaining) :
    PassBefore (before ++ f :: after) remaining before.length f :=
  ⟨by simp, by rwa [List.take_left]⟩

/-- **Where the error of a schema comes from**: labels and positions lead to a level, and what
is wrong there is the root cause. -/
structure Located (schema : Schema) (ceiling : Int32) (e : SchemaError) (labels : List String)
    (positions : List Nat) (cause : SchemaError) (level : Schema) (remaining : Int32) : Prop where
  /-- The error is the cause, wrapped by the labels. -/
  eq_wrap : e = .wrap labels cause
  /-- The labels and positions lead to the level. -/
  descends : Descends schema ceiling positions labels level remaining
  /-- For every label there is one level less to go. -/
  remaining_eq : remaining.toInt = ceiling.toInt - labels.length
  /-- The level is one too deep, or has a first fault. -/
  fault : (remaining.toInt = -1 ∧ cause = .depthExceeded) ∨
    (0 ≤ remaining.toInt ∧ FirstFault level remaining cause)

/-- **Every error of a schema has a place** that it comes from, also under a ceiling that lets
not even the first level pass. -/
theorem exists_located_of_check_eq_error (hceiling : -1 ≤ ceiling.toInt)
    (h : check schema ceiling = .error e) :
    ∃ labels positions cause level remaining,
      Located schema ceiling e labels positions cause level remaining := by
  induction schema using levelInduction generalizing ceiling e with
  | level fields ih =>
    rcases check_eq_error_iff.mp h with
      ⟨hneg, rfl⟩ | ⟨hnonneg, before, f, after, rfl, hpass, hfault⟩
    · exact ⟨[], [], _, fields, ceiling, rfl, .here, by simp, Or.inl ⟨by omega, rfl⟩⟩
    have hbefore : PassBefore (before ++ f :: after) ceiling before.length f :=
      passBefore_of_append hpass
    cases hfault with
    | own hown =>
      have htake : (before ++ f :: after).take before.length = before := List.take_left
      rw [← htake] at hown
      exact ⟨[], [], _, _, ceiling, rfl, .here, by simp, Or.inr ⟨hnonneg, .field hbefore hown⟩⟩
    | children hlabel hnew hobject hcause =>
      have hbelow := toInt_sub_one hnonneg
      obtain ⟨labels, positions, root, level, remaining, hplace⟩ :=
        ih f (by simp) (by omega) hcause
      have hremaining := hplace.remaining_eq
      refine ⟨f.label :: labels, before.length :: positions, root, level, remaining,
        congrArg (SchemaError.invalidField f.label) hplace.eq_wrap,
        .into hbefore hlabel ?_ hobject hplace.descends, ?_, hplace.fault⟩
      · rw [List.take_left]
        exact fun g hg heq => hnew (heq ▸ List.mem_map_of_mem hg)
      · rw [List.length_cons]
        omega

/-! ### The main statement -/

/-- **The error of a schema is its first fault**, under every ceiling that is not below zero.
It is a cause, wrapped by labels. As many positions lead down to the level at fault: the field
at each of them has the label, is an `object` and owns the next level, and all fields before it
pass with what is left of the ceiling. The cause is the depth exactly if there is one label more
than the ceiling allows levels. Otherwise it is the first thing that is wrong with the first
field of the level that does not pass: an empty label, or the label of a field before it, or
a type that is not recognised. The path of the error is the labels, joined by dots. -/
theorem check_error_is_first_fault (hceiling : 0 ≤ ceiling.toInt)
    (h : check schema ceiling = .error e) :
    ∃ (labels : List String) (cause : SchemaError) (positions : List Nat) (level : Schema)
      (remaining : Int32),
      e = .wrap labels cause ∧ cause.isWrapper = false ∧ e.rootCause = cause ∧
      (labels.length : Int) ≤ ceiling.toInt + 1 ∧
      Descends schema ceiling positions labels level remaining ∧
      remaining.toInt = ceiling.toInt - labels.length ∧
      (cause = .depthExceeded ↔ (labels.length : Int) = ceiling.toInt + 1) ∧
      (cause ≠ .depthExceeded → FirstFault level remaining cause) ∧
      e.fieldPath = String.intercalate "." labels := by
  obtain ⟨labels, positions, cause, level, remaining, hplace⟩ :=
    exists_located_of_check_eq_error (by omega) h
  have hremaining := hplace.remaining_eq
  have hcause : cause.isWrapper = false ∧
      (cause = .depthExceeded ↔ remaining.toInt = -1) ∧
      (cause ≠ .depthExceeded → FirstFault level remaining cause) ∧ -1 ≤ remaining.toInt := by
    rcases hplace.fault with ⟨hdeep, rfl⟩ | ⟨hnonneg, hfirst⟩
    · exact ⟨rfl, iff_of_true rfl hdeep, fun hne => absurd rfl hne, by omega⟩
    · exact ⟨hfirst.ne.1, iff_of_false hfirst.ne.2 (by omega), fun _ => hfirst, by omega⟩
  obtain ⟨hwrapper, hdeep, hfirst, hleast⟩ := hcause
  refine ⟨labels, cause, positions, level, remaining, hplace.eq_wrap, hwrapper, ?_, by omega,
    hplace.descends, hremaining, hdeep.trans ⟨fun _ => by omega, fun _ => by omega⟩, hfirst, ?_⟩
  · rw [hplace.eq_wrap, SchemaError.rootCause_wrap labels hwrapper]
  · rw [hplace.eq_wrap, SchemaError.fieldPath, SchemaError.labels_wrap labels hwrapper]

/-! ### A schema with many faults -/

/-- A level below the second `object` field is at fault for a label that occurs twice, a type
that is not recognised and a label that is empty; the levels above have labels that occur twice,
too, behind it. -/
def manyFaults : Schema :=
  [⟨"id", .string, true, false, []⟩,
    ⟨"rows", .object, false, true,
      [⟨"key", .int, false, false, [⟨"", .unknown "t", false, false, []⟩]⟩,
        ⟨"cell", .object, false, false,
          [⟨"x", .int, false, false, []⟩, ⟨"x", .unknown "t", false, false, []⟩,
            ⟨"", .int, false, false, []⟩]⟩,
        ⟨"key", .int, false, false, []⟩]⟩,
    ⟨"id", .string, true, false, []⟩]

/-- The second `x` is found if the ceiling lets its level pass, and the level is one too deep
if the ceiling is lower. -/
theorem check_error_is_first_fault_manyFaults :
    let wrapped : SchemaError → SchemaError := .wrap ["rows", "cell"]
    0 ≤ (2 : Int32).toInt ∧ check manyFaults 2 = .error (wrapped (.duplicateField "x")) ∧
      0 ≤ (1 : Int32).toInt ∧ check manyFaults 1 = .error (wrapped .depthExceeded) ∧
      (∃ (labels : List String) (cause : SchemaError) (positions : List Nat) (level : Schema)
        (remaining : Int32), wrapped (.duplicateField "x") = .wrap labels cause ∧
          Descends manyFaults 2 positions labels level remaining ∧
          FirstFault level remaining cause) ∧
      ∃ labels : List String, wrapped .depthExceeded = .wrap labels .depthExceeded ∧
        (labels.length : Int) = (1 : Int32).toInt + 1 := by
  intro wrapped
  have hdouble : check manyFaults 2 = .error (wrapped (.duplicateField "x")) := rfl
  have hdeep : check manyFaults 1 = .error (wrapped .depthExceeded) := rfl
  refine ⟨by decide, hdouble, by decide, hdeep, ?_, ?_⟩
  · obtain ⟨labels, cause, positions, level, remaining, hwrap, -, hroot, -, hdescends, -, -,
      hfirst, -⟩ := check_error_is_first_fault (by decide) hdouble
    have hcause : cause = .duplicateField "x" := hroot.symm
    refine ⟨labels, cause, positions, level, remaining, hwrap, hdescends, hfirst ?_⟩
    rw [hcause]
    exact SchemaError.noConfusion
  · obtain ⟨labels, cause, -, -, -, hwrap, -, hroot, -, -, -, hdepth, -, -⟩ :=
      check_error_is_first_fault (by decide) hdeep
    have hcause : cause = .depthExceeded := hroot.symm
    subst hcause
    exact ⟨labels, hwrap, hdepth.mp rfl⟩

end Schema

end ConfigSchema
