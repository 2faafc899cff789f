import ConfigSchema.Proofs.Schema.Recognized
import ConfigSchema.Proofs.Schema.Verdict
import ConfigSchema.Proofs.Text.Unplaced

/-!
# The names in the error of a schema

The text of an error is made of fixed words and of names: the labels on the way to the level
at fault, and the label or the name of the type that is at fault there
(`ConfigSchema.SchemaError.names`). All of them are names of fields of the schema
(`ConfigSchema.Schema.names_of_check`), so a schema none of whose names looks like a position
has errors whose text does not either (`ConfigSchema.Schema.unplaced_of_check_recognized`).
-/

namespace ConfigSchema

open Text

namespace SchemaError

/-- The names that the text of an error repeats. -/
def names : SchemaError → List String
  | .invalidType name => [name]
  | .duplicateField label => [label]
  | .invalidField label cause => label :: cause.names
  | _ => []

/-- The text of an error is unplaced if its names are. -/
theorem unplaced_message {e : SchemaError} (h : ∀ name ∈ e.names, Unplaced name.toList) :
    Unplaced e.message.toList := by
  induction e with
  | invalidType name =>
    have hname : Unplaced name.toList := h name List.mem_cons_self
    show Unplaced ("Invalid type " ++ name).toList
    rw [String.toList_append]
    exact hname.append_of_ends (by decide +kernel) (by decide +kernel)
  | duplicateField label =>
    have hlabel : Unplaced label.toList := h label List.mem_cons_self
    show Unplaced ("Field name " ++ label ++ " is duplicated").toList
    rw [String.toList_append, String.toList_append]
    exact (hlabel.append_of_ends (by decide +kernel) (by decide +kernel)).append_of_begins
      (by decide +kernel) (by decide +kernel)
  | depthExceeded => decide +kernel
  | emptyLabel => decide +kernel
  | invalidField label cause ih =>
    obtain ⟨hlabel, hcause⟩ := List.forall_mem_cons.mp h
    have hcolon : ": ".toList = [':', ' '] := by decide +kernel
    have hrest : Unplaced ([':', ' '] ++ cause.message.toList) :=
      (ih hcause).append_of_ends (by decide +kernel) (by decide +kernel)
    show Unplaced ("Invalid field " ++ label ++ ": " ++ cause.message).toList
    rw [String.toList_append, String.toList_append, String.toList_append, hcolon,
      List.append_assoc]
    exact (hlabel.append_of_ends (by decide +kernel) (by decide +kernel)).append_of_begins
      hrest (Unplaced.not_prefix_colon _)

end SchemaError

namespace Schema

/-- **The names in an error** are labels and names of types of the fields of the schema. -/
theorem names_of_check {schema : Schema} {ceiling : Int32} {e : SchemaError}
    (h : check schema ceiling = .error e) :
    ∀ name ∈ e.names, ∃ f, Declares schema f ∧ (name = f.label ∨ name = f.type.name) := by
  induction schema using levelInduction generalizing ceiling e with
  | level fields ih =>
    intro name hname
    rcases check_eq_error_iff.mp h with ⟨-, rfl⟩ | ⟨-, before, f, after, rfl, -, hfault⟩
    · cases hname
    have hf : f ∈ before ++ f :: after := List.mem_append_right _ List.mem_cons_self
    cases hfault with
    | own hown =>
      cases hown with
      | emptyLabel => cases hname
      | duplicate => exact ⟨f, .first hf, Or.inl (List.mem_singleton.mp hname)⟩
      | unknownType _ _ htype =>
        refine ⟨f, .first hf, Or.inr ?_⟩
        rw [htype]
        exact List.mem_singleton.mp hname
    | children _ _ _ hcause =>
      rcases List.mem_cons.mp hname with rfl | hname
      · exact ⟨f, .first hf, Or.inl rfl⟩
      · obtain ⟨g, hg, hnames⟩ := ih f hf hcause name hname
        exact ⟨g, .nested hf hg, hnames⟩

/-- **The text of an error** is unplaced if the labels and the names of types of the schema
are. It makes no difference whether its types have been recognised. -/
theorem unplaced_of_check_recognized {schema : Schema} {ceiling : Int32} {e : SchemaError}
    (hnames : ∀ f, Declares schema f → Unplaced f.label.toList ∧ Unplaced f.type.name.toList)
    (h : check (Schema.recognized schema) ceiling = .error e) : Unplaced e.message.toList := by
  refine SchemaError.unplaced_message fun name hname => ?_
  obtain ⟨g, hg, hname⟩ := names_of_check h name hname
  obtain ⟨f, hf, rfl⟩ := exists_of_declares_recognized hg
  rw [Field.recognized_label, Field.recognized_type, FieldType.name_recognized] at hname
  rcases hname with rfl | rfl
  · exact (hnames f hf).1
  · exact (hnames f hf).2

end Schema

end ConfigSchema
