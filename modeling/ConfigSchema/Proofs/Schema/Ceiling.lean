import ConfigSchema.Proofs.Schema.Blame
import ConfigSchema.Proofs.Schema.WellFormed

/-!
# The check of a schema under two ceilings

Two checks of one schema that count down from different ceilings do the same thing until the
lower one is met. So a verdict that has nothing to do with the ceiling is final: a schema that
passes under the lower ceiling passes under the higher one
(`ConfigSchema.Schema.check_eq_ok_of_le`), and an error whose cause is not the depth is the
error under the higher one as well, wrappers included
(`ConfigSchema.Schema.check_eq_error_of_le`).

The converse fails for both. A lower ceiling may stop at an early field that is nested too deep,
and never get to the label further on that occurs twice. How far down it got is known, though:
the error has one label for each level that the ceiling allows
(`ConfigSchema.Schema.length_labels_of_depthExceeded`).
-/

namespace ConfigSchema

namespace Schema

variable {schema : Schema} {fields : List Field} {f : Field} {seen : List String}
  {ceiling ceiling' : Int32} {e : SchemaError}

/-- Of two counts the higher one stays the higher one, as long as the lower one is not below
zero. -/
theorem sub_one_le_sub_one (hnonneg : 0 ≤ ceiling.toInt) (hle : ceiling ≤ ceiling') :
    ceiling - 1 ≤ ceiling' - 1 := by
  have hint : ceiling.toInt ≤ ceiling'.toInt := Int32.le_iff_toInt_le.mp hle
  have hlow : (ceiling - 1).toInt = ceiling.toInt - 1 := toInt_sub_one hnonneg
  have hhigh : (ceiling' - 1).toInt = ceiling'.toInt - 1 :=
    toInt_sub_one (Int.le_trans hnonneg hint)
  exact Int32.le_iff_toInt_le.mpr (by omega)

/-! ### Passing under the higher ceiling -/

/-- **What passes under a ceiling passes under every higher one.** -/
theorem check_eq_ok_of_le (hle : ceiling ≤ ceiling') (hok : check schema ceiling = .ok ()) :
    check schema ceiling' = .ok () := by
  obtain ⟨hdepth, hlevels⟩ := check_eq_ok_iff_reaches.mp hok
  have hint : ceiling.toInt ≤ ceiling'.toInt := Int32.le_iff_toInt_le.mp hle
  exact check_eq_ok_iff_reaches.mpr ⟨Int.le_trans hdepth hint, hlevels⟩

/-- Fields that pass with some levels to go pass with more of them. -/
theorem Pass.of_le (hnonneg : 0 ≤ ceiling.toInt) (hle : ceiling ≤ ceiling')
    (hpass : Pass fields ceiling) : Pass fields ceiling' :=
  ⟨hpass.wellFormed, fun f hf ho =>
    check_eq_ok_of_le (sub_one_le_sub_one hnonneg hle) (hpass.children f hf ho)⟩

/-! ### Failing under the higher ceiling -/

/-- A field that is at fault for something else than its depth is at fault for it with more
levels to go, if this holds of its children. -/
theorem FieldFault.of_le (hroot : e.rootCause ≠ .depthExceeded)
    (hchildren : ∀ cause, check f.children (ceiling - 1) = .error cause →
      cause.rootCause ≠ .depthExceeded → check f.children (ceiling' - 1) = .error cause)
    (hfault : FieldFault seen f ceiling e) : FieldFault seen f ceiling' e := by
  rcases hfault with hown | ⟨hlabel, hnew, hobject, hcause⟩
  · exact .own hown
  · exact .children hlabel hnew hobject (hchildren _ hcause hroot)

/-- **An error whose cause is not the depth is the error under every higher ceiling.** The
fields before the one at fault pass under the higher ceiling, too, so the walk gets there. -/
theorem check_eq_error_of_le (hle : ceiling ≤ ceiling') (he : check schema ceiling = .error e)
    (hroot : e.rootCause ≠ .depthExceeded) : check schema ceiling' = .error e := by
  induction schema using levelInduction generalizing ceiling ceiling' e with
  | level fields ih =>
    rcases check_eq_error_iff.mp he with
      ⟨-, rfl⟩ | ⟨hnonneg, before, f, after, rfl, hpass, hfault⟩
    · exact absurd rfl hroot
    have hint : ceiling.toInt ≤ ceiling'.toInt := Int32.le_iff_toInt_le.mp hle
    have hbelow : ceiling - 1 ≤ ceiling' - 1 := sub_one_le_sub_one hnonneg hle
    refine check_eq_error_iff.mpr (Or.inr ⟨Int.le_trans hnonneg hint, before, f, after, rfl,
      hpass.of_le hnonneg hle, hfault.of_le hroot fun cause hcause hne => ?_⟩)
    exact ih f (by simp) hbelow hcause hne

/-- **A verdict that has nothing to do with the ceiling is final**: it is the verdict under
every higher ceiling. -/
theorem check_eq_of_le (hle : ceiling ≤ ceiling')
    (hsettled : check schema ceiling = .ok () ∨
      ∃ e, check schema ceiling = .error e ∧ e.rootCause ≠ .depthExceeded) :
    check schema ceiling' = check schema ceiling := by
  rcases hsettled with hok | ⟨e, he, hroot⟩
  · rw [hok, check_eq_ok_of_le hle hok]
  · rw [he, check_eq_error_of_le hle he hroot]

/-! ### Failing for the depth -/

/-- **An error for the depth has one label for each level that the ceiling allows**, and none if
the ceiling is below zero. -/
theorem length_labels_of_depthExceeded (he : check schema ceiling = .error e)
    (hroot : e.rootCause = .depthExceeded) :
    (e.labels.length : Int) = max 0 (ceiling.toInt + 1) := by
  rcases Int.lt_or_le ceiling.toInt 0 with hneg | hnonneg
  · have hwhole : check schema ceiling = .error .depthExceeded := withinDepth_of_neg hneg
    obtain rfl : .depthExceeded = e := Except.error.inj (hwhole.symm.trans he)
    have hnone : SchemaError.depthExceeded.labels.length = 0 := rfl
    omega
  · obtain ⟨labels, positions, cause, level, remaining, hplace⟩ :=
      exists_located_of_check_eq_error (by omega) he
    have hremaining := hplace.remaining_eq
    have hwrap := hplace.eq_wrap
    rcases hplace.fault with ⟨hdeep, rfl⟩ | ⟨-, hfirst⟩
    · have hlabels : e.labels = labels := by rw [hwrap, SchemaError.labels_wrap labels rfl]
      rw [hlabels]
      omega
    · -- the first fault of a level is never its depth
      have hcause : e.rootCause = cause := by
        rw [hwrap, SchemaError.rootCause_wrap labels hfirst.ne.1]
      exact absurd (hcause.symm.trans hroot) hfirst.ne.2

end Schema

end ConfigSchema
