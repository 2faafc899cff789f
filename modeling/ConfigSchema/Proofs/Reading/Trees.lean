import ConfigSchema.Proofs.Json.Nesting
import ConfigSchema.Proofs.Reading.Loops

/-!
# The tree of a written document

The reader of trees goes one level down at every bracket, and it stops at the bracket for
which there is no level left. So a written document is answered with its tree if it is nested
no deeper than the levels go, and with the fault of deep nesting if it is
(`ConfigSchema.Reading.tree_answers`); nothing else can go wrong with it.

Results that come with such a proviso (`ConfigSchema.Reading.within`) are put together by
taking the deeper one of the two.
-/

namespace ConfigSchema.Reading

open Json

variable {ι α β σ : Type}

/-! ### Results within a nesting -/

/-- A result, unless it is nested deeper than there are levels. -/
def within (levels depth : Nat) (x : α) : Except Fault α :=
  if depth ≤ levels then .ok x else .error .tooDeep

section Within

variable {n d : Nat}

theorem within_of_le (h : d ≤ n) (x : α) : within n d x = .ok x := if_pos h

theorem within_of_lt (h : n < d) (x : α) : within n d x = .error .tooDeep :=
  if_neg (Nat.not_le.mpr h)

@[simp] theorem within_zero (n : Nat) (x : α) : within n 0 x = .ok x := within_of_le n.zero_le x

/-- Inside a bracket there is one level less, above and below. -/
@[simp] theorem within_succ_succ (n d : Nat) (x : α) :
    within (n + 1) (d + 1) x = within n d x := by
  rcases Nat.lt_or_ge n d with h | h
  · rw [within_of_lt h, within_of_lt (Nat.succ_lt_succ h)]
  · rw [within_of_le h, within_of_le (Nat.succ_le_succ h)]

theorem map_within (f : α → β) (x : α) : (within n d x).map f = within n d (f x) := by
  rcases Nat.lt_or_ge n d with h | h
  · rw [within_of_lt h, within_of_lt h]
    rfl
  · rw [within_of_le h, within_of_le h]
    rfl

theorem within_bind {d' : Nat} (x : α) (f : α → β) :
    (within n d x >>= fun x => within n d' (f x)) = within n (max d d') (f x) := by
  rcases Nat.lt_or_ge n d with h | h
  · rw [within_of_lt h, within_of_lt (by omega)]
    rfl
  · rw [within_of_le h]
    show within n d' (f x) = _
    rcases Nat.lt_or_ge n d' with h' | h'
    · rw [within_of_lt h', within_of_lt (by omega)]
    · rw [within_of_le h', within_of_le (by omega)]

theorem mapM_within (xs : List ι) (depth : ι → Nat) (f : ι → α) :
    (xs.mapM fun x => within n (depth x) (f x)) =
      within n (deepest (xs.map depth)) (xs.map f) := by
  induction xs with
  | nil => rfl
  | cons x xs ih =>
    have hxs (y : α) : (within n (deepest (xs.map depth)) (xs.map f) >>= fun ys =>
        pure (y :: ys)) = within n (deepest (xs.map depth)) (y :: xs.map f) :=
      map_within (y :: ·) (xs.map f)
    rw [List.mapM_cons, ih]
    simp only [hxs]
    exact within_bind (f x) (· :: xs.map f)

theorem foldlM_within (xs : List ι) (depth : ι → Nat) (f : σ → ι → σ) (state : σ) :
    (xs.foldlM (fun state x => within n (depth x) (f state x)) state) =
      within n (deepest (xs.map depth)) (xs.foldl f state) := by
  induction xs generalizing state with
  | nil => rfl
  | cons x xs ih =>
    rw [List.foldlM_cons]
    simp only [ih]
    exact within_bind (f state x) (xs.foldl f)

end Within

/-! ### Trees -/

/-- A written document can be taken neither for a space nor for the end of an array. -/
theorem beginsElement_text (w : Written) : BeginsElement w.text := by
  cases w with
  | boolean b => cases b <;> exact ⟨_, _, rfl, by decide, by decide⟩
  | string s => exact ⟨_, _, rfl, by decide, by decide⟩
  | array items => exact ⟨_, _, rfl, by decide, by decide⟩
  | object members => exact ⟨_, _, rfl, by decide, by decide⟩

/-- A member of an object is answered with the object to which it has been added. -/
theorem treeMember_answers {item : Reader Json.Tree} {text : List Char} {j : Json.Tree}
    {n d : Nat} (h : item.Answers text (within n d j)) (before : List (String × Json.Tree))
    (key : String) :
    (treeMember item before key).Answers (':' :: text)
      (within n d (Keyed.insert key j before)) := by
  intro rest
  rw [← map_within fun j => Keyed.insert key j before]
  exact map_pair_bind_ok (colon_answers _) fun _ =>
    map_pair_bind_pure (f := fun j => Keyed.insert key j before) (h rest) fun _ => rfl

/-- **A written document** is answered with its tree if there are enough levels. -/
theorem tree_answers (w : Written) (n : Nat) :
    (tree n).Answers w.text (within n w.nesting w.tree) := by
  induction w using Written.induction generalizing n with
  | boolean b =>
    intro rest
    cases n <;> exact map_pair_bind_ok (lexeme_answers_boolean b rest) fun _ => rfl
  | string s =>
    intro rest
    cases n <;> exact map_pair_bind_ok (lexeme_answers_string s rest) fun _ => rfl
  | array items ih =>
    intro rest
    rw [Written.text_array, Written.nesting_array, Written.tree_array]
    cases n with
    -- no level is left: the opening bracket is as far as the reader gets
    | zero => exact map_pair_bind_ok (lexeme_answers_array _) fun _ => rfl
    | succ n =>
      have hitems : ∀ w ∈ items, (tree n).Answers w.text (within n w.nesting w.tree) :=
        fun w hw => ih w hw n
      have helements := (elements_answers (fun w _ => beginsElement_text w) hitems).map
        Json.Tree.array
      rw [mapM_within, map_within] at helements
      rw [within_succ_succ]
      exact map_pair_bind_ok (lexeme_answers_array _) fun _ =>
        map_pair_bind_keep (helements rest) fun _ => rfl
  | object members ih =>
    intro rest
    rw [Written.text_object, Written.nesting_object, Written.tree_object]
    cases n with
    | zero => exact map_pair_bind_ok (lexeme_answers_object _) fun _ => rfl
    | succ n =>
      have hmember : ∀ before, ∀ m ∈ members,
          (treeMember (tree n) before m.1).Answers (':' :: m.2.text)
            (within n m.2.nesting (Keyed.insert m.1 m.2.tree before)) :=
        fun before m hm => treeMember_answers (ih m hm n) before m.1
      have hmembers := (members_answers hmember []).map Json.Tree.object
      rw [foldlM_within, map_within] at hmembers
      rw [within_succ_succ, Keyed.ofList, List.foldl_map]
      exact map_pair_bind_ok (lexeme_answers_object _) fun _ =>
        map_pair_bind_keep (hmembers rest) fun _ => rfl

/-- **The tree of the text** of a written document. -/
theorem readTree_text (w : Written) :
    readTree (symbols w.text) = within maxNesting w.nesting w.tree :=
  readAll_of_answers (tree_answers w maxNesting)

end ConfigSchema.Reading
