import ConfigSchema.Proofs.Schema.Countdown

/-!
# Well-formed schemas

The check of a schema counts down and stops at the first fault. What it decides can be said
without either: a schema passes under a ceiling exactly if its depth, a maximum over the
tree, is within the ceiling, and every level that is reached through `object` fields
(`ConfigSchema.Schema.Reaches`) is well formed on its own
(`ConfigSchema.Schema.check_eq_ok_iff_depth_le_and_levels`). Children of a field of another
type belong to no level that is reached, and nothing is asked of them.
-/

namespace ConfigSchema

namespace Schema

/-- **The levels of a schema**: the schema itself, and the children of each `object` field of
a level. -/
inductive Reaches (root : Schema) : Schema → Prop
  /-- The root is a level. -/
  | root : Reaches root root
  /-- The children of an `object` field of a level are a level. -/
  | children {level : Schema} {f : Field} (above : Reaches root level) (mem : f ∈ level)
      (isObject : f.type = .object) : Reaches root f.children

/-- A level of the children of an `object` field is a level of the schema. -/
theorem Reaches.of_children {root level : Schema} {f : Field} (hf : f ∈ root)
    (ho : f.type = .object) (h : Reaches f.children level) : Reaches root level := by
  induction h with
  | root => exact .children .root hf ho
  | children _ hg hobject ih => exact .children ih hg hobject

/-- Reading the levels from the top: what holds of every level holds of the root, and of
every level of the children of its `object` fields. -/
theorem forall_reaches_iff {root : Schema} {P : Schema → Prop} :
    (∀ level, Reaches root level → P level) ↔
      P root ∧ ∀ f ∈ root, f.type = .object → ∀ level, Reaches f.children level → P level := by
  constructor
  · intro h
    exact ⟨h root .root, fun f hf ho level hlevel => h level (hlevel.of_children hf ho)⟩
  · rintro ⟨hroot, hbelow⟩ level hlevel
    have h : level = root ∨
        ∃ f ∈ root, f.type = .object ∧ Reaches f.children level := by
      induction hlevel with
      | root => exact Or.inl rfl
      | @children level f _ hf ho ih =>
        rcases ih with rfl | ⟨g, hg, hgo, hreach⟩
        · exact Or.inr ⟨f, hf, ho, .root⟩
        · exact Or.inr ⟨g, hg, hgo, hreach.children hf ho⟩
    rcases h with rfl | ⟨f, hf, ho, hreach⟩
    · exact hroot
    · exact hbelow f hf ho level hreach

/-- The depth of a schema is within an integer bound exactly if the bound is not below zero
and leaves one level for the children of each `object` field. -/
theorem depth_le_int_iff {schema : Schema} {n : Int} :
    (depth schema : Int) ≤ n ↔
      0 ≤ n ∧ ∀ f ∈ schema, f.type = .object → (depth f.children : Int) ≤ n - 1 := by
  constructor
  · intro h
    have hn : 0 ≤ n := by omega
    refine ⟨hn, fun f hf ho => ?_⟩
    have hf := depth_le_iff.mp (Nat.le_refl (depth schema)) f hf ho
    omega
  · rintro ⟨hn, h⟩
    obtain ⟨m, rfl⟩ := Int.eq_ofNat_of_zero_le hn
    refine Int.ofNat_le.mpr (depth_le_iff.mpr fun f hf ho => ?_)
    have hf := h f hf ho
    omega

/-- **A schema passes** exactly if it is no deeper than the ceiling and all its levels are
well formed. -/
theorem check_eq_ok_iff_reaches {schema : Schema} {ceiling : Int32} :
    check schema ceiling = .ok () ↔
      (depth schema : Int) ≤ ceiling.toInt ∧
        ∀ level, Reaches schema level → LevelWellFormed level := by
  induction schema using levelInduction generalizing ceiling with
  | level fields ih =>
    rw [check_eq_ok_iff, depth_le_int_iff, forall_reaches_iff]
    constructor
    · rintro ⟨hceiling, hlevel, hchildren⟩
      refine ⟨⟨hceiling, fun f hf ho => ?_⟩, hlevel, fun f hf ho => ?_⟩
      · exact toInt_sub_one hceiling ▸ ((ih f hf).mp (hchildren f hf ho)).1
      · exact ((ih f hf).mp (hchildren f hf ho)).2
    · rintro ⟨⟨hceiling, hdepth⟩, hlevel, hbelow⟩
      refine ⟨hceiling, hlevel, fun f hf ho => (ih f hf).mpr ⟨?_, hbelow f hf ho⟩⟩
      rw [toInt_sub_one hceiling]
      exact hdepth f hf ho

/-- **The check of a schema decides depth and well-formedness**, under every ceiling of 32
bits: it accepts exactly if the depth is within the ceiling, as integers, and every level
that is reached is well formed; and no subtraction on the way leaves the range of 32
bits. -/
theorem check_eq_ok_iff_depth_le_and_levels (schema : Schema) (ceiling : Int32) :
    (check schema ceiling = .ok () ↔
      (depth schema : Int) ≤ ceiling.toInt ∧
        ∀ level, Reaches schema level → LevelWellFormed level) ∧
      Exact.check schema ceiling.toInt = some (check schema ceiling) :=
  ⟨check_eq_ok_iff_reaches, Exact.check_eq_some_check schema ceiling⟩

end Schema

end ConfigSchema
