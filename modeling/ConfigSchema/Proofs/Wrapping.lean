import ConfigSchema.Proofs.Payload.Place
import ConfigSchema.Proofs.Schema.Blame

/-!
# Errors in their wrappers

An error may be wrapped, and what wraps it may be wrapped again, any number of times. Several
functions look through the wrappers, each on its own: one for the error inside them all, one for the
text, one for the list of all errors that are met on the way. They agree, for errors of schemas and
of payloads, whether a check has made them or not (`ConfigSchema.wrapped_errors_consistent`).

The list is compared with the sources of an error: the error itself, its source, the source of
that, down to an error that has none (`ConfigSchema.SourceChain`).

Both kinds of errors have one structure. Some errors wrap nothing, and a wrapper around an error is
an error again. So it is said once what the functions do at an error that wraps nothing, and what
they do at one wrapper (`ConfigSchema.Layered`). What they do at any number of wrappers follows by
induction on these, whichever kinds of wrappers there are: two around errors of a payload, and one
around errors of a schema. The codes of both kinds are the name of the family and the number of the
root cause (`ConfigSchema.Coded`).
-/

namespace ConfigSchema

/-! ### Chains of sources -/

section

variable {ε ω : Type}

/-- **The chain of sources of an error**: the error, its source, the source of that, and so on; the
last one has no source. -/
inductive SourceChain (source : ε → Option ε) : ε → List ε → Prop
  /-- An error without a source stands alone. -/
  | last {e : ε} (source_eq : source e = none) : SourceChain source e [e]
  /-- An error stands before the chain of its source. -/
  | before {e cause : ε} {rest : List ε} (source_eq : source e = some cause)
      (chain : SourceChain source cause rest) : SourceChain source e (e :: rest)

/-- An error has one chain of sources only. -/
theorem SourceChain.unique {source : ε → Option ε} {e : ε} {errors errors' : List ε}
    (h : SourceChain source e errors) (h' : SourceChain source e errors') : errors = errors' := by
  induction h generalizing errors' with
  | last hnone =>
    cases h' with
    | last => rfl
    | before hsome => cases hnone.symm.trans hsome
  | before hsome _ ih =>
    cases h' with
    | last hnone => cases hnone.symm.trans hsome
    | before hsome' hbelow' =>
      obtain rfl := Option.some.inj (hsome.symm.trans hsome')
      exact congrArg (List.cons _) (ih hbelow')

/-! ### Layers of wrappers -/

/-- **Errors in layers of wrappers**, and what the functions that look through the wrappers do at
an error that wraps nothing, which is one without a source, and at one wrapper. -/
structure Layered (around : ω → ε → ε) (clause : ω → String) (isWrapper : ε → Bool)
    (source : ε → Option ε) (rootCause : ε → ε) (chain : ε → List ε) (message : ε → String) :
    Prop where
  /-- Every error is one that wraps nothing, in wrappers. -/
  exists_eq_wrap : ∀ e, ∃ (wrappers : List ω) (root : ε),
    source root = none ∧ e = wrappers.foldr around root
  /-- What has a source is a wrapper, and nothing else is. -/
  isWrapper_eq : ∀ e, isWrapper e = (source e).isSome
  /-- The source of a wrapper is what it is around. -/
  source_around : ∀ w e, source (around w e) = some e
  /-- An error that wraps nothing is its own root cause. -/
  rootCause_of_source_eq_none : ∀ e, source e = none → rootCause e = e
  /-- A wrapper does not change the root cause. -/
  rootCause_around : ∀ w e, rootCause (around w e) = rootCause e
  /-- An error that wraps nothing is listed alone. -/
  chain_of_source_eq_none : ∀ e, source e = none → chain e = [e]
  /-- A wrapper is listed before what it is around. -/
  chain_around : ∀ w e, chain (around w e) = around w e :: chain e
  /-- A wrapper puts its clause before the text. -/
  message_around : ∀ w e, message (around w e) = clause w ++ message e

namespace Layered

variable {around : ω → ε → ε} {clause : ω → String} {isWrapper : ε → Bool}
  {source : ε → Option ε} {rootCause : ε → ε} {chain : ε → List ε} {message : ε → String}
  (h : Layered around clause isWrapper source rootCause chain message)

include h

/-- Wrappers do not change the root cause. -/
theorem rootCause_wrap (wrappers : List ω) (e : ε) :
    rootCause (wrappers.foldr around e) = rootCause e := by
  induction wrappers with
  | nil => rfl
  | cons w wrappers ih => exact (h.rootCause_around w _).trans ih

/-- Every error is its root cause, in wrappers, and the root cause has no source. -/
theorem exists_eq_wrap_rootCause (e : ε) :
    source (rootCause e) = none ∧ ∃ wrappers : List ω, e = wrappers.foldr around (rootCause e) := by
  obtain ⟨wrappers, root, hroot, rfl⟩ := h.exists_eq_wrap e
  have hrootCause : rootCause (wrappers.foldr around root) = root :=
    (h.rootCause_wrap wrappers root).trans (h.rootCause_of_source_eq_none root hroot)
  rw [hrootCause]
  exact ⟨hroot, wrappers, rfl⟩

/-- The root cause is no wrapper. -/
theorem isWrapper_rootCause (e : ε) : isWrapper (rootCause e) = false := by
  rw [h.isWrapper_eq, (h.exists_eq_wrap_rootCause e).1]
  rfl

/-- What is listed is the chain of sources. -/
theorem sourceChain_iff (e : ε) (errors : List ε) :
    SourceChain source e errors ↔ errors = chain e := by
  -- the list is a chain of sources; that no other list is one then says the rest
  have hchain : SourceChain source e (chain e) := by
    obtain ⟨wrappers, root, hroot, rfl⟩ := h.exists_eq_wrap e
    induction wrappers with
    | nil =>
      rw [List.foldr_nil, h.chain_of_source_eq_none root hroot]
      exact .last hroot
    | cons w wrappers ih =>
      rw [List.foldr_cons, h.chain_around]
      exact .before (h.source_around w _) ih
  exact ⟨fun herrors => herrors.unique hchain, fun heq => heq ▸ hchain⟩

/-- The last error that is listed is the root cause. -/
theorem getLast?_chain (e : ε) : (chain e).getLast? = some (rootCause e) := by
  obtain ⟨wrappers, root, hroot, rfl⟩ := h.exists_eq_wrap e
  induction wrappers with
  | nil =>
    rw [List.foldr_nil, h.chain_of_source_eq_none root hroot,
      h.rootCause_of_source_eq_none root hroot]
    rfl
  | cons w wrappers ih =>
    rw [List.foldr_cons, h.chain_around, h.rootCause_around, List.getLast?_cons, ih]
    rfl

/-- The text of an error in wrappers has a clause for every wrapper, the outermost first. -/
theorem message_wrap (wrappers : List ω) (e : ε) :
    message (wrappers.foldr around e) = String.join (wrappers.map clause) ++ message e := by
  induction wrappers with
  | nil => simp
  | cons w wrappers ih =>
    rw [List.foldr_cons, h.message_around, ih, List.map_cons, String.join_cons,
      String.append_assoc]

end Layered

/-! ### Codes -/

/-- **Codes of a family of errors**, each with the number of the root cause; what wraps nothing has
a number that is not zero. -/
structure Coded (isWrapper : ε → Bool) (rootCause : ε → ε) (number : ε → Nat) (family : String)
    (code : ε → String) : Prop where
  /-- Zero is left to the wrappers. -/
  number_ne_zero : ∀ e, isWrapper e = false → number e ≠ 0
  /-- The code is the name of the family and the number of the root cause. -/
  code_eq : ∀ e, code e = family ++ toString (number (rootCause e))

namespace Coded

variable {isWrapper : ε → Bool} {rootCause : ε → ε} {number : ε → Nat} {family : String}
  {code : ε → String} (h : Coded isWrapper rootCause number family code)

include h

/-- The number in a code is not zero if the root cause is no wrapper. -/
theorem code_ne {e : ε} (hroot : isWrapper (rootCause e) = false) :
    code e ≠ family ++ toString 0 := by
  rw [h.code_eq]
  intro heq
  exact h.number_ne_zero _ hroot (Payload.eq_of_toString_eq ((String.append_right_inj _).mp heq))

/-- What has the same root cause has the same code. -/
theorem code_eq_of_rootCause_eq {e e' : ε} (heq : rootCause e = rootCause e') :
    code e = code e' := by
  rw [h.code_eq, h.code_eq, heq]

end Coded

end

/-! ### Errors of a schema -/

namespace SchemaError

/-- What a wrapper with a label puts before the text. -/
def clause (label : String) : String := "Invalid field " ++ label ++ ": "

/-- **Errors of a schema are layered**, with labels as wrappers. -/
theorem layered : Layered invalidField clause isWrapper source rootCause chain message where
  exists_eq_wrap e := by
    induction e with
    | invalidField label cause ih =>
      obtain ⟨labels, root, hroot, rfl⟩ := ih
      exact ⟨label :: labels, root, hroot, rfl⟩
    | _ => exact ⟨[], _, rfl, rfl⟩
  isWrapper_eq e := by cases e <;> rfl
  source_around _ _ := rfl
  rootCause_of_source_eq_none e h := by
    cases e with
    | invalidField => cases h
    | _ => rfl
  rootCause_around _ _ := rfl
  chain_of_source_eq_none e h := by
    cases e with
    | invalidField => cases h
    | _ => rfl
  chain_around _ _ := rfl
  message_around _ _ := rfl

/-- **Errors of a schema are coded** by the numbers from one to four. -/
theorem coded : Coded isWrapper rootCause number "SCHEMA_000" code where
  number_ne_zero e h := by
    cases e with
    | invalidField => cases h
    | _ => exact Nat.succ_ne_zero _
  code_eq _ := rfl

end SchemaError

/-! ### Errors of a payload -/

namespace ValidationError

/-- **A wrapper** of an error of a payload, without what it is around. -/
inductive Wrapper where
  /-- The error is that of an element of an array. -/
  | element (label : String) (index : Nat)
  /-- The error is that of the map in a field. -/
  | object (label : String)
  deriving DecidableEq, Repr

/-- The wrapper around an error. -/
def Wrapper.around : Wrapper → ValidationError → ValidationError
  | .element label index, cause => .invalidArrayElement label index cause
  | .object label, cause => .invalidObject label cause

/-- What a wrapper puts before the text. -/
def Wrapper.clause : Wrapper → String
  | .element label index =>
    "Array " ++ label ++ " is invalid at index " ++ toString index ++ ": "
  | .object label => "Field " ++ label ++ " is invalid: "

/-- A cause in wrappers, of which the first one is outermost. -/
def wrap (wrappers : List Wrapper) (cause : ValidationError) : ValidationError :=
  wrappers.foldr Wrapper.around cause

/-- **Errors of a payload are layered**, with two kinds of wrappers. -/
theorem layered :
    Layered Wrapper.around Wrapper.clause isWrapper source rootCause chain message where
  exists_eq_wrap e := by
    induction e with
    | invalidArrayElement label index cause ih =>
      obtain ⟨wrappers, root, hroot, rfl⟩ := ih
      exact ⟨.element label index :: wrappers, root, hroot, rfl⟩
    | invalidObject label cause ih =>
      obtain ⟨wrappers, root, hroot, rfl⟩ := ih
      exact ⟨.object label :: wrappers, root, hroot, rfl⟩
    | _ => exact ⟨[], _, rfl, rfl⟩
  isWrapper_eq e := by cases e <;> rfl
  source_around w _ := by cases w <;> rfl
  rootCause_of_source_eq_none e h := by
    cases e with
    | invalidArrayElement => cases h
    | invalidObject => cases h
    | _ => rfl
  rootCause_around w _ := by cases w <;> rfl
  chain_of_source_eq_none e h := by
    cases e with
    | invalidArrayElement => cases h
    | invalidObject => cases h
    | _ => rfl
  chain_around w _ := by cases w <;> rfl
  message_around w _ := by cases w <;> rfl

/-- **Errors of a payload are coded** by the numbers from one to five. -/
theorem coded : Coded isWrapper rootCause number "VALIDATION_000" code where
  number_ne_zero e h := by
    cases e with
    | invalidArrayElement => cases h
    | invalidObject => cases h
    | _ => exact Nat.succ_ne_zero _
  code_eq _ := rfl

/-- What has the same root cause has the same label. -/
theorem label_eq_of_rootCause_eq {e e' : ValidationError} (h : e.rootCause = e'.rootCause) :
    e.label = e'.label :=
  congrArg ownLabel h

end ValidationError

/-! ### The main statement -/

/-- **Errors are consistent in any wrappers**, those of a schema as well as those of a payload.

* What is listed as the chain of an error is the chain of its sources, and no other list is. The
  last error in it is the root cause, which is no wrapper; so the number in a code is never zero.
* More wrappers change neither the root cause nor the code, nor the label of an error of a payload.
* An error is its root cause, in wrappers. Its text has a clause for each of them, the outermost
  first, which depends on nothing but the wrapper, and then the text of the root cause. The path of
  an error of a schema is the labels of its wrappers, the outermost first, joined by dots. -/
theorem wrapped_errors_consistent :
    (∀ e : SchemaError,
      (∀ errors, SourceChain SchemaError.source e errors ↔ errors = e.chain) ∧
      e.chain.getLast? = some e.rootCause ∧
      e.rootCause.isWrapper = false ∧ e.code ≠ "SCHEMA_0000" ∧
      (∀ labels, (SchemaError.wrap labels e).rootCause = e.rootCause ∧
        (SchemaError.wrap labels e).code = e.code) ∧
      ∃ labels, e = .wrap labels e.rootCause ∧
        e.message = String.join (labels.map SchemaError.clause) ++ e.rootCause.message ∧
        e.fieldPath = String.intercalate "." labels) ∧
    ∀ e : ValidationError,
      (∀ errors, SourceChain ValidationError.source e errors ↔ errors = e.chain) ∧
      e.chain.getLast? = some e.rootCause ∧
      e.rootCause.isWrapper = false ∧ e.code ≠ "VALIDATION_0000" ∧
      (∀ wrappers, (ValidationError.wrap wrappers e).rootCause = e.rootCause ∧
        (ValidationError.wrap wrappers e).code = e.code ∧
        (ValidationError.wrap wrappers e).label = e.label) ∧
      ∃ wrappers, e = .wrap wrappers e.rootCause ∧
        e.message = String.join (wrappers.map ValidationError.Wrapper.clause) ++
          e.rootCause.message := by
  constructor
  · intro e
    have hlayered := SchemaError.layered
    have hroot := hlayered.isWrapper_rootCause e
    obtain ⟨-, labels, heq⟩ := hlayered.exists_eq_wrap_rootCause e
    refine ⟨hlayered.sourceChain_iff e, hlayered.getLast?_chain e, hroot,
      SchemaError.coded.code_ne hroot, fun more => ?_, labels, heq, ?_, ?_⟩
    · have hsame := hlayered.rootCause_wrap more e
      exact ⟨hsame, SchemaError.coded.code_eq_of_rootCause_eq hsame⟩
    · rw [← hlayered.message_wrap, ← heq]
    · have hlabels : e.labels = labels :=
        (congrArg SchemaError.labels heq).trans (SchemaError.labels_wrap labels hroot)
      rw [SchemaError.fieldPath, hlabels]
  · intro e
    have hlayered := ValidationError.layered
    have hroot := hlayered.isWrapper_rootCause e
    obtain ⟨-, wrappers, heq⟩ := hlayered.exists_eq_wrap_rootCause e
    refine ⟨hlayered.sourceChain_iff e, hlayered.getLast?_chain e, hroot,
      ValidationError.coded.code_ne hroot, fun more => ?_, wrappers, heq, ?_⟩
    · have hsame := hlayered.rootCause_wrap more e
      exact ⟨hsame, ValidationError.coded.code_eq_of_rootCause_eq hsame,
        ValidationError.label_eq_of_rootCause_eq hsame⟩
    · rw [← hlayered.message_wrap, ← heq]

example : (ValidationError.wrap [.element "ports" 2, .object "ports"]
    (.missingRequiredField "host")).message =
      "Array ports is invalid at index 2: Field ports is invalid: Field host is required" := by
  decide

end ConfigSchema
