import ConfigSchema.Proofs.Reading.Skipped
import ConfigSchema.Reading.Decoder

/-!
# Reading from text agrees with reading from a tree

A decoder reads a value from text in one pass, or from the tree of the text. The two *agree* on
documents (`ConfigSchema.Reading.Decoder.Agrees`) if what is read from the text is all of the
document and no other value than the one of its tree, and if nothing is missed where no object
repeats a key. The two may still differ in what they turn down: a member that is given twice
stops the one, and not the other.

Here this is shown of scalars and lists, given that it holds of the elements.
-/

namespace ConfigSchema.Reading

open Json

variable {α β : Type} {n : Nat}

/-- **The two ways of reading agree** on documents of at most the given nesting. -/
structure Decoder.Agrees (decoder : Decoder α) (n : Nat) : Prop where
  /-- From the text all of the document is read, and the value that its tree has if any. -/
  sound : ∀ ⦃s r r' : Input⦄ ⦃w : Parsed⦄ ⦃x : α⦄, (parsed n).Reads s w r →
    decoder.ofText.Reads s x r' → r' = r ∧ ∀ y, decoder.ofTree w.tree = .ok y → y = x
  /-- If no object repeats a key, the value of the tree is read from the text. -/
  complete : ∀ ⦃s r : Input⦄ ⦃w : Parsed⦄ ⦃x : α⦄, (parsed n).Reads s w r → w.Distinct →
    decoder.ofTree w.tree = .ok x → decoder.ofText.Reads s x r

namespace Decoder

/-- A decoder that turns everything down agrees with itself. -/
theorem agrees_of_refuses {decoder : Decoder α} (htext : ∀ s x r, ¬ decoder.ofText.Reads s x r)
    (htree : ∀ j x, decoder.ofTree j ≠ .ok x) : decoder.Agrees n :=
  ⟨fun s _ r' _ x _ hx => absurd hx (htext s x r'),
    fun _ _ w x _ _ hx => absurd hx (htree w.tree x)⟩

/-! ### Scalars -/

theorem scalar_reads_iff {judge : Lexeme → Except Fault α} {s r : Input} {x : α} :
    (scalar judge).ofText.Reads s x r ↔ ∃ l, lexeme.Reads s l r ∧ judge l = .ok x := by
  rw [Reader.reads_iff, scalar]
  dsimp only
  constructor
  · intro h
    obtain ⟨l, s₁, hhead, _, h⟩ := map_pair_bind_eq_ok_iff.mp h
    obtain ⟨y, hjudge, h⟩ := map_pair_judge_eq_ok_iff.mp h
    obtain ⟨rfl, rfl⟩ := map_pair_pure_eq_ok_iff.mp h
    exact ⟨l, hhead, hjudge⟩
  · rintro ⟨l, hhead, hjudge⟩
    exact hhead.bind fun _ => map_pair_judge_eq_ok_iff.mpr ⟨x, hjudge, rfl⟩

/-- A decoder that turns down arrays and objects agrees: the rest is known from how it begins. -/
theorem scalar_agrees {judge : Lexeme → Except Fault α} (harray : ∀ x, judge .array ≠ .ok x)
    (hobject : ∀ x, judge .object ≠ .ok x) : (scalar judge).Agrees n := by
  constructor
  · intro s r r' w x hw hx
    obtain ⟨l, hl, hjudge⟩ := scalar_reads_iff.mp hx
    cases valueRead_of_parsed hw with
    | scalar _ hhead =>
      obtain ⟨rfl, rfl⟩ := hl.unique hhead
      exact ⟨rfl, fun y hy => Except.ok.inj (hy.symm.trans hjudge)⟩
    | array hhead =>
      obtain ⟨rfl, -⟩ := hl.unique hhead
      exact absurd hjudge (harray x)
    | object hhead =>
      obtain ⟨rfl, -⟩ := hl.unique hhead
      exact absurd hjudge (hobject x)
  · intro s r w x hw _ hx
    cases valueRead_of_parsed hw with
    | scalar _ hhead => exact scalar_reads_iff.mpr ⟨_, hhead, hx⟩
    | array => exact absurd hx (harray x)
    | object => exact absurd hx (hobject x)

theorem string_agrees : string.Agrees n :=
  scalar_agrees (fun _ h => by cases h) fun _ h => by cases h

theorem boolean_agrees : boolean.Agrees n :=
  scalar_agrees (fun _ h => by cases h) fun _ h => by cases h

theorem unit_agrees : unit.Agrees n :=
  scalar_agrees (fun _ h => by cases h) fun _ h => by cases h

theorem int32_agrees : int32.Agrees n :=
  scalar_agrees (fun _ h => by cases h) fun _ h => by cases h

theorem Agrees.map {decoder : Decoder α} (h : decoder.Agrees n) (f : α → β) :
    (decoder.map f).Agrees n := by
  constructor
  · intro s r r' w y hw hy
    obtain ⟨x, hx, rfl⟩ := Reader.reads_map_iff.mp hy
    obtain ⟨rfl, htree⟩ := h.sound hw hx
    refine ⟨rfl, fun y hy => ?_⟩
    obtain ⟨x', hx', rfl⟩ := Outcome.map_eq_ok_iff.mp hy
    exact congrArg f (htree x' hx')
  · intro s r w y hw hdistinct hy
    obtain ⟨x, hx, rfl⟩ := Outcome.map_eq_ok_iff.mp hy
    exact Reader.reads_map_iff.mpr ⟨x, h.complete hw hdistinct hx, rfl⟩

/-! ### Lists -/

section Lists

variable {item : Decoder α} {s r r' : Input} {ws : List Parsed} {xs : List α} {first : Bool}

theorem list_reads_iff :
    (list (some item)).ofText.Reads s xs r ↔
      ∃ s₁, lexeme.Reads s .array s₁ ∧ ElementsRead item.ofText true s₁ xs r := by
  rw [Reader.reads_iff, list]
  dsimp only
  constructor
  · intro h
    obtain ⟨l, s₁, hhead, _, h⟩ := map_pair_bind_eq_ok_iff.mp h
    cases l with
    | array =>
      have h := reads_of_keep h fun _ => rfl
      exact ⟨s₁, hhead, elements_reads_iff.mp h⟩
    | _ => cases h
  · rintro ⟨s₁, hhead, hitems⟩
    refine hhead.bind fun _ => ?_
    exact Reader.Reads.keep (elements_reads_iff.mpr hitems) fun _ => rfl

theorem elementsRead_sound (hitem : item.Agrees n)
    (hws : ElementsRead (parsed n) first s ws r) (hxs : ElementsRead item.ofText first s xs r') :
    r' = r ∧ ∀ ys, (ws.map Parsed.tree).mapM item.ofTree = .ok ys → ys = xs := by
  induction hws generalizing xs with
  | nil hclose =>
    cases hxs with
    | nil hclose' => exact ⟨(hclose'.unique hclose).2, fun ys hys => (Except.ok.inj hys).symm⟩
    | cons hsep hbegins hne => exact absurd hclose (hsep.not_begins hbegins hne (by decide))
  | cons hsep hbegins hne hhead _ ih =>
    cases hxs with
    | nil hclose => exact absurd hclose (hsep.not_begins hbegins hne (by decide))
    | cons hsep' hbegins' _ hhead' htail' =>
      obtain rfl := hsep.unique hsep'
      obtain ⟨rfl, rfl⟩ := hbegins.unique hbegins'
      obtain ⟨rfl, htree⟩ := hitem.sound hhead hhead'
      obtain ⟨rfl, htrees⟩ := ih htail'
      refine ⟨rfl, fun ys hys => ?_⟩
      rw [List.map_cons, List.mapM_cons] at hys
      obtain ⟨y, hy, hys⟩ := Outcome.bind_eq_ok_iff.mp hys
      obtain ⟨tail, htail, hys⟩ := Outcome.bind_eq_ok_iff.mp hys
      obtain rfl := htree y hy
      obtain rfl := htrees tail htail
      exact (Except.ok.inj hys).symm

theorem elementsRead_complete (hitem : item.Agrees n)
    (hws : ElementsRead (parsed n) first s ws r) (hdistinct : ∀ w ∈ ws, w.Distinct)
    (hxs : (ws.map Parsed.tree).mapM item.ofTree = .ok xs) :
    ElementsRead item.ofText first s xs r := by
  induction hws generalizing xs with
  | nil hclose =>
    obtain rfl := Except.ok.inj hxs
    exact .nil hclose
  | cons hsep hbegins hne hhead _ ih =>
    obtain ⟨hw, hdistinct⟩ := List.forall_mem_cons.mp hdistinct
    rw [List.map_cons, List.mapM_cons] at hxs
    obtain ⟨y, hy, hxs⟩ := Outcome.bind_eq_ok_iff.mp hxs
    obtain ⟨tail, htail, hxs⟩ := Outcome.bind_eq_ok_iff.mp hxs
    obtain rfl := Except.ok.inj hxs
    exact .cons hsep hbegins hne (hitem.complete hhead hw hy) (ih hdistinct htail)

/-- Where no level is left no list is read at all. -/
theorem not_list_none_reads : ¬ (list (none : Option (Decoder α))).ofText.Reads s xs r := by
  intro h
  rw [Reader.reads_iff, list] at h
  obtain ⟨l, s₁, -, _, h⟩ := map_pair_bind_eq_ok_iff.mp h
  cases l <;> cases h

theorem list_none_agrees : (list (none : Option (Decoder α))).Agrees n :=
  agrees_of_refuses (fun _ _ _ => not_list_none_reads) fun j xs h => by cases j <;> cases h

/-- **A list agrees** if its elements do. -/
theorem list_agrees (hitem : item.Agrees n) : (list (some item)).Agrees (n + 1) := by
  constructor
  · intro s r r' w xs hw hxs
    obtain ⟨s₁, hhead, hitems⟩ := list_reads_iff.mp hxs
    obtain ⟨k, ws, hk, rfl, hws⟩ := (valueRead_of_parsed hw).exists_elements hhead
    obtain rfl := Nat.succ.inj hk
    obtain ⟨rfl, htrees⟩ := elementsRead_sound hitem hws hitems
    refine ⟨rfl, fun ys hys => ?_⟩
    rw [Parsed.tree_array] at hys
    exact htrees ys hys
  · intro s r w xs hw hdistinct hxs
    cases valueRead_of_parsed hw with
    | scalar hscalar =>
      cases w with
      | array => cases hscalar
      | object => cases hscalar
      | _ => cases hxs
    | array hhead hws =>
      rw [Parsed.tree_array] at hxs
      exact list_reads_iff.mpr ⟨_, hhead,
        elementsRead_complete hitem hws (Parsed.distinct_array_iff.mp hdistinct) hxs⟩
    | object =>
      rw [Parsed.tree_object] at hxs
      cases hxs

end Lists

end Decoder

end ConfigSchema.Reading
