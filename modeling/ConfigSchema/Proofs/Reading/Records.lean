import ConfigSchema.Loading
import ConfigSchema.Proofs.Reading.Trees

/-!
# Written records are read back, in both ways

A decoder reads a typed value straight from text or by way of a tree. It *answers* a written
document (`ConfigSchema.Reading.Decoder.Answers`) if it does the same in both ways, and then
whole documents are loaded alike (`ConfigSchema.Reading.Decoder.read_text`,
`ConfigSchema.Reading.Decoder.readByTree_text`), except that a tree which is nested too deep is
turned down before the decoder sees it.

A record is answered from the answers of the members that are given
(`ConfigSchema.Reading.RecordShape.decoder_answers`). The text brings them in the order in
which they were written, the tree in the order of their keys: it has to be said of a record
that both orders lead to the same draft.
-/

namespace ConfigSchema.Reading

open Json

variable {α β σ ι : Type}

/-! ### Decoders -/

/-- **A decoder answers a written document**: alike from its text and from its tree. -/
structure Decoder.Answers (decoder : Decoder α) (w : Written) (answer : Except Fault α) :
    Prop where
  /-- From the text, whatever follows it. -/
  ofText : decoder.ofText.Answers w.text answer
  /-- From the tree. -/
  ofTree : decoder.ofTree w.tree = answer

namespace Decoder

variable {decoder : Decoder α} {w : Written} {answer : Except Fault α}

/-- A document that is answered is read from its text. -/
theorem read_text (h : decoder.Answers w answer) : decoder.read (symbols w.text) = answer :=
  readAll_of_answers h.ofText

/-- A document that is answered is read by way of its tree, unless it is nested too deep. -/
theorem readByTree_text (h : decoder.Answers w answer) :
    decoder.readByTree (symbols w.text) =
      if w.nesting ≤ maxNesting then answer else .error .tooDeep := by
  rw [readByTree, readTree_text]
  split
  · next hle =>
    rw [within_of_le hle]
    exact h.ofTree
  · next hle =>
    rw [within_of_lt (Nat.not_le.mp hle)]
    rfl

theorem Answers.map (f : α → β) (h : decoder.Answers w answer) :
    (decoder.map f).Answers w (answer.map f) :=
  ⟨h.ofText.map f, congrArg (Except.map f) h.ofTree⟩

/-! ### Scalars -/

theorem string_answers (s : String) : Decoder.string.Answers (.string s) (.ok s) :=
  ⟨fun rest => map_pair_bind_ok (lexeme_answers_string s rest) fun _ => rfl, rfl⟩

theorem boolean_answers (b : Bool) : Decoder.boolean.Answers (.boolean b) (.ok b) :=
  ⟨fun rest => map_pair_bind_ok (lexeme_answers_boolean b rest) fun _ => rfl, rfl⟩

/-! ### Lists -/

/-- Where no level is left an array is nested too deep. -/
theorem list_none_answers (items : List Written) :
    (Decoder.list (α := α) none).Answers (.array items) (.error .tooDeep) := by
  refine ⟨fun rest => ?_, by rw [Written.tree_array]; rfl⟩
  rw [Written.text_array]
  exact map_pair_bind_ok (lexeme_answers_array _) fun _ => rfl

/-- An array is answered element by element. -/
theorem list_answers {item : Decoder α} {xs : List ι} {written : ι → Written}
    {answer : ι → Except Fault α} (h : ∀ x ∈ xs, item.Answers (written x) (answer x)) :
    (Decoder.list (some item)).Answers (.array (xs.map written)) (xs.mapM answer) := by
  constructor
  · intro rest
    have hitems : ∀ x ∈ xs, item.ofText.Answers (written x).text (answer x) :=
      fun x hx => (h x hx).ofText
    have helements := elements_answers (fun x _ => beginsElement_text (written x)) hitems
    rw [Written.text_array, List.map_map]
    exact map_pair_bind_ok (lexeme_answers_array _) fun _ =>
      map_pair_bind_keep (helements rest) fun _ => rfl
  · rw [Written.tree_array, List.map_map]
    induction xs with
    | nil => rfl
    | cons x xs ih =>
      obtain ⟨hx, hxs⟩ := List.forall_mem_cons.mp h
      have hrest : (xs.map (Written.tree ∘ written)).mapM item.ofTree = xs.mapM answer := ih hxs
      show ((x :: xs).map (Written.tree ∘ written)).mapM item.ofTree = _
      rw [List.map_cons, List.mapM_cons, List.mapM_cons, hrest, Function.comp_apply, hx.ofTree]

end Decoder

/-! ### Records -/

/-- A member that is given in a written record. -/
structure Given (σ : Type) where
  /-- Its name. -/
  name : String
  /-- What is written for it. -/
  value : Written
  /-- The change of the draft that is read. -/
  change : Except Fault (σ → σ)

namespace Given

variable {members : List (Member σ)} {g : Given σ}

/-- A member that is one part of the draft, read as `answer`. -/
def of (name : String) (value : Written) (set : β → σ → σ) (answer : Except Fault β) :
    Given σ :=
  ⟨name, value, answer.map set⟩

/-- The member as it is written. -/
def written (g : Given σ) : String × Written := (g.name, g.value)

/-- The member as it stands in a tree. -/
def entry (g : Given σ) : String × Json.Tree := (g.name, g.value.tree)

/-- The draft after a member of a tree. -/
def changed (draft : σ) (g : Given σ) : Except Fault σ := g.change.map fun change => change draft

/-- The draft after a member of a text, which is not to be given twice. -/
def next (members : List (Member σ)) (draft : σ) (g : Given σ) : Except Fault σ :=
  match members.find? fun m => m.name = g.name with
  | none => .ok draft
  | some m => if m.given draft then .error (.duplicateField m.name) else g.changed draft

/-- The record has a member of the name, which answers what is written with the change. -/
def Answered (members : List (Member σ)) (g : Given σ) : Prop :=
  ∃ m, members.find? (fun m => m.name = g.name) = some m ∧ m.decoder.Answers g.value g.change

theorem answered_of {name : String} {optional : Bool} {get : σ → Option β} {set : β → σ → σ}
    {decoder : Decoder β} {value : Written} {answer : Except Fault β}
    (hfind : members.find? (fun m => m.name = name) = some (.of name optional get set decoder))
    (h : decoder.Answers value answer) : (Given.of name value set answer).Answered members :=
  ⟨_, hfind, h.map set⟩

theorem Answered.memberOfText_answers (h : g.Answered members) (draft : σ) :
    (RecordShape.memberOfText members draft g.name).Answers (':' :: g.value.text)
      (g.next members draft) := by
  obtain ⟨m, hfind, hm⟩ := h
  intro rest
  rw [Reader.outcome, RecordShape.memberOfText, hfind, next, hfind]
  dsimp only
  split
  · rfl
  · exact map_pair_bind_ok (colon_answers _) fun _ =>
      map_pair_bind_pure (f := fun change => change draft) (hm.ofText rest) fun _ => rfl

theorem Answered.memberOfTree_entry (h : g.Answered members) (draft : σ) :
    RecordShape.memberOfTree members draft g.entry = g.changed draft := by
  obtain ⟨m, hfind, hm⟩ := h
  rw [RecordShape.memberOfTree, entry, hfind]
  dsimp only
  rw [hm.ofTree, changed]
  cases g.change <;> rfl

end Given

namespace RecordShape

/-- Where no level is left an object is nested too deep. -/
theorem decoder_none_answers (shape : RecordShape α σ) (members : List (String × Written)) :
    (shape.decoder none).Answers (.object members) (.error .tooDeep) := by
  refine ⟨fun rest => ?_, by rw [Written.tree_object]; rfl⟩
  rw [Written.text_object]
  exact map_pair_bind_ok (lexeme_answers_object _) fun _ => rfl

/-- **A record is answered from the members that are given**: `given` are they in the order
in which they are written, `sorted` in the order of their keys, and both lead to one draft. -/
theorem decoder_answers (shape : RecordShape α σ) {members : List (Member σ)}
    {given : List (Given σ)} (sorted : List (Given σ)) (draft : Except Fault σ)
    (hgiven : ∀ g ∈ given, g.Answered members)
    (hsorted : sorted ⊆ given)
    (hkeys : Keyed.ofList (given.map Given.entry) = sorted.map Given.entry)
    (htext : given.foldlM (Given.next members) shape.blank = draft)
    (htree : sorted.foldlM Given.changed shape.blank = draft) :
    (shape.decoder (some members)).Answers (.object (given.map Given.written))
      (draft >>= shape.finish) := by
  constructor
  · intro rest
    have hmembers := members_answers (fun draft g hg => (hgiven g hg).memberOfText_answers draft)
      shape.blank rest
    rw [htext] at hmembers
    rw [Written.text_object, List.map_map]
    refine map_pair_bind_ok (lexeme_answers_object _) fun _ => ?_
    refine map_pair_bind hmembers fun last _ _ => ?_
    dsimp only
    cases shape.finish last <;> rfl
  · have hfold : ∀ draft, (sorted.map Given.entry).foldlM (memberOfTree members) draft =
        sorted.foldlM Given.changed draft := by
      clear hkeys htree
      induction sorted with
      | nil => exact fun _ => rfl
      | cons g sorted ih =>
        obtain ⟨hg, hsorted⟩ := List.cons_subset.mp hsorted
        intro draft
        rw [List.map_cons, List.foldlM_cons, List.foldlM_cons, (hgiven g hg).memberOfTree_entry]
        exact bind_congr (ih hsorted)
    rw [Written.tree_object, List.map_map]
    show ((Keyed.ofList (given.map Given.entry)).foldlM (memberOfTree members) shape.blank >>=
      shape.finish) = _
    rw [hkeys, hfold, htree]

end RecordShape

end ConfigSchema.Reading
