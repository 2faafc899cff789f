import ConfigSchema.Proofs.Json.Written
import ConfigSchema.Proofs.Reading.Strings

/-!
# Written arrays and objects are read back

The two loops know about commas and closing brackets alone. So what they answer to the text
between two brackets is put together from what is answered to the elements
(`ConfigSchema.Reading.elements_answers`) or to the members, one after the other, with the
state that is carried along (`ConfigSchema.Reading.members_answers`). The loop stops where the
first of these answers is a fault.

All that is asked of the text of an element is that it cannot be taken for the end of the
array; the text of a member begins with a quote in any case.
-/

namespace ConfigSchema.Reading

open Json

variable {ι α σ : Type} {xs : List ι} {text : ι → List Char}

/-- The text begins neither with a space nor with the bracket that ends an array, so that an
element can begin with it. -/
def BeginsElement (text : List Char) : Prop :=
  ∃ c cs, text = c :: cs ∧ (Symbol.char c).isSpace = false ∧ c ≠ ']'

/-! ### Arrays -/

section Arrays

variable {item : Reader α} {answer : ι → Except Fault α}

theorem moreElements_answers (hbegins : ∀ x ∈ xs, BeginsElement (text x))
    (hitem : ∀ x ∈ xs, item.Answers (text x) (answer x)) :
    Reader.Answers (moreElements item) ((xs.flatMap fun x => ',' :: text x) ++ [']'])
      (xs.mapM answer) := by
  induction xs with
  | nil =>
    intro rest
    rw [Reader.outcome, List.flatMap_nil, List.nil_append, symbols_cons, List.cons_append,
      moreElements, next?_cons (by decide)]
    rfl
  | cons x xs ih =>
    intro rest
    obtain ⟨hx, hxs⟩ := List.forall_mem_cons.mp hitem
    obtain ⟨⟨c, cs, htext, hspace, hclosing⟩, hbegins⟩ := List.forall_mem_cons.mp hbegins
    have hx := hx (symbols ((xs.flatMap fun x => ',' :: text x) ++ [']']) ++ rest)
    rw [htext, symbols_cons, List.cons_append] at hx
    -- the input up to the first symbol of the element, and two steps of the loop along it
    rw [Reader.outcome, List.flatMap_cons, htext, List.append_assoc, symbols_append,
      List.append_assoc, symbols_cons, symbols_cons, List.cons_append, List.cons_append,
      moreElements, next?_cons (by decide)]
    dsimp only
    rw [if_neg (by decide), if_pos rfl, next?_cons hspace]
    dsimp only
    rw [if_neg (fun h => hclosing (Symbol.char.inj h)), List.mapM_cons]
    exact map_pair_bind hx fun b _ _ => map_pair_bind_pure (ih hbegins hxs rest) fun _ => rfl

/-- **The elements of a written array** are answered one by one, after the opening bracket. -/
theorem elements_answers (hbegins : ∀ x ∈ xs, BeginsElement (text x))
    (hitem : ∀ x ∈ xs, item.Answers (text x) (answer x)) :
    (elements item).Answers (separated (xs.map text) ++ [']']) (xs.mapM answer) := by
  cases xs with
  | nil => exact fun rest => rfl
  | cons x xs =>
    intro rest
    obtain ⟨hx, hxs⟩ := List.forall_mem_cons.mp hitem
    obtain ⟨⟨c, cs, htext, hspace, hclosing⟩, hbegins⟩ := List.forall_mem_cons.mp hbegins
    have hx := hx (symbols ((xs.flatMap fun x => ',' :: text x) ++ [']']) ++ rest)
    rw [htext, symbols_cons, List.cons_append] at hx
    rw [Reader.outcome, List.map_cons, separated_cons, List.flatMap_map, htext,
      List.append_assoc, symbols_append, List.append_assoc, symbols_cons, List.cons_append,
      elements, next?_cons hspace]
    dsimp only
    rw [if_neg (fun h => hclosing (Symbol.char.inj h)), List.mapM_cons]
    exact map_pair_bind hx fun b _ _ =>
      map_pair_bind_pure (moreElements_answers hbegins hxs rest) fun _ => rfl

end Arrays

/-! ### Objects -/

section Objects

variable {member : σ → String → Reader σ} {key : ι → String} {answer : σ → ι → Except Fault σ}

/-- A member is answered after its opening quote as it is after its key. -/
theorem keyAndMember_answers {state : σ} {label : String} {value : List Char}
    {next : Except Fault σ} (h : (member state label).Answers (':' :: value) next) :
    (keyAndMember member state (.char '"')).Answers
      (label.toList.flatMap escapeChar ++ ['"'] ++ ':' :: value) next := by
  intro rest
  rw [Reader.outcome, symbols_append, List.append_assoc, keyAndMember, if_pos rfl]
  exact map_pair_bind_ok (string_answers label _) fun _ =>
    map_pair_bind_keep (h rest) fun _ => rfl

theorem moreMembers_answers
    (hmember : ∀ state, ∀ x ∈ xs,
      (member state (key x)).Answers (':' :: text x) (answer state x)) (state : σ) :
    Reader.Answers (moreMembers member state)
      ((xs.flatMap fun x => ',' :: writeMember (key x) (text x)) ++ ['\x7d'])
      (xs.foldlM answer state) := by
  induction xs generalizing state with
  | nil =>
    intro rest
    rw [Reader.outcome, List.flatMap_nil, List.nil_append, symbols_cons, List.cons_append,
      moreMembers, next?_cons (by decide)]
    rfl
  | cons x xs ih =>
    intro rest
    have hx := keyAndMember_answers (hmember state x List.mem_cons_self)
      (symbols ((xs.flatMap fun x => ',' :: writeMember (key x) (text x)) ++ ['\x7d']) ++ rest)
    have hxs := ih fun state y hy => hmember state y (List.mem_cons_of_mem _ hy)
    rw [Reader.outcome, List.flatMap_cons, List.append_assoc, symbols_append,
      List.append_assoc, writeMember, writeString, symbols_cons, List.cons_append,
      List.cons_append, symbols_cons, List.cons_append, moreMembers, next?_cons (by decide)]
    dsimp only
    rw [if_neg (by decide), if_pos rfl, next?_cons (by decide)]
    dsimp only
    rw [if_neg (by decide), List.foldlM_cons]
    exact map_pair_bind hx fun state' _ _ =>
      map_pair_bind_keep (hxs state' rest) fun _ => rfl

/-- **The members of a written object** are answered one after the other, after the opening
brace. -/
theorem members_answers
    (hmember : ∀ state, ∀ x ∈ xs,
      (member state (key x)).Answers (':' :: text x) (answer state x)) (state : σ) :
    (members member state).Answers
      (separated (xs.map fun x => writeMember (key x) (text x)) ++ ['\x7d'])
      (xs.foldlM answer state) := by
  cases xs with
  | nil => exact fun rest => rfl
  | cons x xs =>
    intro rest
    have hx := keyAndMember_answers (hmember state x List.mem_cons_self)
      (symbols ((xs.flatMap fun x => ',' :: writeMember (key x) (text x)) ++ ['\x7d']) ++ rest)
    have hxs := moreMembers_answers fun state y hy => hmember state y (List.mem_cons_of_mem _ hy)
    rw [Reader.outcome, List.map_cons, separated_cons, List.flatMap_map, List.append_assoc,
      symbols_append, List.append_assoc, writeMember, writeString, List.cons_append,
      symbols_cons, List.cons_append, members, next?_cons (by decide)]
    dsimp only
    rw [if_neg (by decide), List.foldlM_cons]
    exact map_pair_bind hx fun state' _ _ =>
      map_pair_bind_keep (hxs state' rest) fun _ => rfl

end Objects

end ConfigSchema.Reading
