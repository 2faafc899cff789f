import ConfigSchema.Proofs.Json.Parsed
import ConfigSchema.Proofs.Reading.Inversion

/-!
# Reading parsed documents

Here a text is read with all its members, repeated keys included
(`ConfigSchema.Reading.parsed`). The reader of trees does the same and forgets about them: it
is this reader with its result made into a tree, and it stops at the same faults
(`ConfigSchema.Reading.tree_eq_map_parsed`). So whatever is read from a tree is read from a
document that has been parsed, and a text that repeats no key is one whose document does not.
-/

namespace ConfigSchema.Reading

open Json

variable {α β σ τ : Type}

/-! ### The reader -/

/-- Reads one member of a document after its key, and puts it behind those before. -/
def parsedMember (item : Reader Parsed) (before : List (String × Parsed)) (key : String) :
    Reader (List (String × Parsed)) := fun s => do
  let sign ← colon s
  let taken ← item sign.rest
  return ⟨before ++ [(key, taken.value)], taken.rest, Nat.le_trans taken.bound sign.bound⟩

/-- Reads a document, given a reader for the documents one level down. -/
def parsedWith (inner : Option (Reader Parsed)) : Reader Parsed := fun s => do
  let head ← lexeme s
  let taken ← match head.value with
    | .null => .ok (.nothing .null head.rest)
    | .boolean b => .ok (.nothing (.boolean b) head.rest)
    | .number n => .ok (.nothing (.number n) head.rest)
    | .string text => .ok (.nothing (.string text) head.rest)
    | .array => descend inner (fun item => Reader.map .array (elements item)) head.rest
    | .object =>
      descend inner (fun item => Reader.map .object (members (parsedMember item) [])) head.rest
  return taken.weaken head.bound

/-- Reads a document of at most the given nesting. -/
def parsed : Nat → Reader Parsed
  | 0 => parsedWith none
  | n + 1 => parsedWith (some (parsed n))

/-! ### Loops whose results are changed -/

theorem Reader.map_map {γ : Type} (g : β → γ) (f : α → β) (read : Reader α) :
    Reader.map g (Reader.map f read) = Reader.map (fun x => g (f x)) read := by
  funext s
  rw [Reader.map, Reader.map, Reader.map]
  cases read s <;> rfl

/-- An outcome that is changed at the end is changed on the way. -/
theorem map_bind_eq_bind {s t : Input} {first : Except Fault (Taken α s)} {g : β → σ}
    {next : Taken α s → Except Fault (Taken β t)} :
    (first >>= next).map (Taken.map g) = first >>= fun taken => (next taken).map (Taken.map g) := by
  cases first <;> rfl

/-- What is read behind a head may be changed before it is counted as read with the head, or
after. -/
theorem Reader.map_bind_weaken {f : α → β} {read : Reader α} {s t : Input}
    (h : t.length ≤ s.length) :
    (Reader.map f read t >>= fun taken => (pure (taken.weaken h) : Except Fault (Taken β s))) =
      (read t >>= fun taken => (pure (taken.weaken h) : Except Fault (Taken α s))).map
        (Taken.map f) := by
  rw [Reader.map]
  cases read t <;> rfl

/-- A value that is put somewhere after its colon may be changed before it is put there, or where
it has been put. -/
theorem colon_bind_map {f : α → β} {g : σ → τ} (put : α → σ) (put' : β → τ)
    (hput : ∀ x, put' (f x) = g (put x)) (item : Reader α) (s : Input) :
    (do
      let sign ← colon s
      let taken ← Reader.map f item sign.rest
      return ⟨put' taken.value, taken.rest, Nat.le_trans taken.bound sign.bound⟩) =
      (do
        let sign ← colon s
        let taken ← item sign.rest
        return ⟨put taken.value, taken.rest, Nat.le_trans taken.bound sign.bound⟩ :
          Except Fault (Taken σ s)).map (Taken.map g) := by
  cases colon s with
  | error e => rfl
  | ok sign =>
    show Reader.map f item sign.rest >>= _ = (item sign.rest >>= _).map _
    rw [Reader.map]
    cases item sign.rest with
    | error e => rfl
    | ok taken =>
      show (Except.ok _ : Except Fault (Taken _ s)) = Except.ok _
      simp only [Taken.map, hput]

section Loops

variable {f : α → β} {item : Reader α} {g : σ → τ} {member : σ → String → Reader σ}
  {member' : τ → String → Reader τ} {s : Input}

theorem moreElements_map :
    moreElements (Reader.map f item) s = Reader.map (List.map f) (moreElements item) s := by
  induction hn : s.length using Nat.strongRecOn generalizing s with
  | ind n ih =>
  rw [Reader.map, moreElements, moreElements]
  split
  · rfl
  next x r h _ =>
  split
  · rfl
  split
  · split
    · rfl
    next y r' h' _ =>
    split
    · rfl
    rw [map_bind_eq_bind, Reader.map]
    cases hhead : item (y :: r') with
    | error e => rfl
    | ok head =>
      have hbound := head.bound
      simp only [List.length_cons] at hbound
      have htail := ih head.rest.length (by omega) rfl
      show moreElements (Reader.map f item) head.rest >>= _ =
        (moreElements item head.rest >>= _).map _
      rw [htail, Reader.map]
      cases moreElements item head.rest <;> rfl
  · rfl

theorem elements_map : elements (Reader.map f item) = Reader.map (List.map f) (elements item) := by
  funext s
  rw [Reader.map, elements, elements]
  split
  · rfl
  next x r h _ =>
  split
  · rfl
  rw [Reader.map]
  cases item (x :: r) with
  | error e => rfl
  | ok head =>
    show moreElements (Reader.map f item) head.rest >>= _ =
      (moreElements item head.rest >>= _).map _
    rw [moreElements_map, Reader.map]
    cases moreElements item head.rest <;> rfl

/-- What is made of the elements may be changed instead of the elements. -/
theorem map_elements_map {ρ υ : Type} {build : List α → ρ} {build' : List β → υ} {change : ρ → υ}
    (hbuild : ∀ xs, build' (xs.map f) = change (build xs)) :
    Reader.map build' (elements (Reader.map f item)) =
      Reader.map change (Reader.map build (elements item)) := by
  rw [elements_map, Reader.map_map, Reader.map_map]
  simp only [hbuild]

section Members

variable (hmember : ∀ d key, member' (g d) key = Reader.map g (member d key))

include hmember

theorem keyAndMember_map (d : σ) (x : Symbol) :
    keyAndMember member' (g d) x = Reader.map g (keyAndMember member d x) := by
  funext s
  rw [Reader.map, keyAndMember, keyAndMember]
  split
  · cases string s with
    | error e => rfl
    | ok key =>
      show member' (g d) key.value key.rest >>= _ = (member d key.value key.rest >>= _).map _
      rw [hmember, Reader.map]
      cases member d key.value key.rest <;> rfl
  · rfl

theorem moreMembers_map (d : σ) :
    moreMembers member' (g d) s = Reader.map g (moreMembers member d) s := by
  induction hn : s.length using Nat.strongRecOn generalizing s d with
  | ind n ih =>
  rw [Reader.map, moreMembers, moreMembers]
  split
  · rfl
  next x r h _ =>
  split
  · rfl
  split
  · split
    · rfl
    next y r' h' _ =>
    split
    · rfl
    rw [map_bind_eq_bind, keyAndMember_map hmember, Reader.map]
    cases keyAndMember member d y r' with
    | error e => rfl
    | ok next =>
      have hbound := next.bound
      have hlast := ih next.rest.length (by omega) next.value rfl
      show moreMembers member' (g next.value) next.rest >>= _ =
        (moreMembers member next.value next.rest >>= _).map _
      rw [hlast, Reader.map]
      cases moreMembers member next.value next.rest <;> rfl
  · rfl

theorem members_map (d : σ) : members member' (g d) = Reader.map g (members member d) := by
  funext s
  rw [Reader.map, members, members]
  split
  · rfl
  next x r h _ =>
  split
  · rfl
  rw [keyAndMember_map hmember, Reader.map]
  cases keyAndMember member d x r with
  | error e => rfl
  | ok next =>
    show moreMembers member' (g next.value) next.rest >>= _ =
      (moreMembers member next.value next.rest >>= _).map _
    rw [moreMembers_map hmember, Reader.map]
    cases moreMembers member next.value next.rest <;> rfl

/-- What is made of the members may be changed instead of the members. -/
theorem map_members_map {ρ υ : Type} {build : σ → ρ} {build' : τ → υ} {change : ρ → υ}
    (hbuild : ∀ d, build' (g d) = change (build d)) (d : σ) :
    Reader.map build' (members member' (g d)) =
      Reader.map change (Reader.map build (members member d)) := by
  rw [members_map hmember, Reader.map_map, Reader.map_map]
  simp only [hbuild]

end Members

end Loops

/-! ### Trees of documents -/

theorem treeMember_map (item : Reader Parsed) (before : List (String × Parsed)) (key : String) :
    treeMember (Reader.map Parsed.tree item) (Parsed.lastEntries before) key =
      Reader.map Parsed.lastEntries (parsedMember item before key) := by
  funext s
  exact colon_bind_map (fun w => before ++ [(key, w)])
    (fun j => Keyed.insert key j (Parsed.lastEntries before))
    (fun w => (Parsed.lastEntries_append before key w).symm) item s

theorem treeWith_map (inner : Option (Reader Parsed)) :
    treeWith (inner.map (Reader.map Parsed.tree)) =
      Reader.map Parsed.tree (parsedWith inner) := by
  funext s
  rw [treeWith, Reader.map, parsedWith]
  cases lexeme s with
  | error e => rfl
  | ok head =>
    obtain ⟨l, t, h⟩ := head
    cases l with
    | array =>
      cases inner with
      | none => rfl
      | some item =>
        have helements : Reader.map Tree.array (elements (Reader.map Parsed.tree item)) =
            Reader.map Parsed.tree (Reader.map Parsed.array (elements item)) :=
          map_elements_map fun items => (Parsed.tree_array items).symm
        show Reader.map Tree.array (elements (Reader.map Parsed.tree item)) t >>= _ = _
        rw [helements]
        exact Reader.map_bind_weaken h
    | object =>
      cases inner with
      | none => rfl
      | some item =>
        have hmembers : Reader.map Tree.object
            (members (treeMember (Reader.map Parsed.tree item)) (Parsed.lastEntries [])) =
            Reader.map Parsed.tree (Reader.map Parsed.object (members (parsedMember item) [])) :=
          map_members_map (treeMember_map item) (fun read => (Parsed.tree_object read).symm) []
        show Reader.map Tree.object
          (members (treeMember (Reader.map Parsed.tree item)) (Parsed.lastEntries [])) t >>= _ = _
        rw [hmembers]
        exact Reader.map_bind_weaken h
    | _ => rfl

/-- **A tree is read as a document is parsed**, with the same faults. -/
theorem tree_eq_map_parsed (n : Nat) : tree n = Reader.map Parsed.tree (parsed n) := by
  induction n with
  | zero => exact treeWith_map none
  | succ n ih =>
    rw [tree, ih]
    exact treeWith_map (some (parsed n))

/-! ### What a document is read from -/

/-- **What a document is read from**: a scalar is known from how it begins, and the parts of an
array or an object are documents with one level less. -/
inductive ValueRead : Nat → Input → Parsed → Input → Prop
  /-- A scalar is read to its end. -/
  | scalar {n : Nat} {s r : Input} {w : Parsed} (scalar : w.isScalar = true)
      (head : lexeme.Reads s (.ofTree w.tree) r) : ValueRead n s w r
  /-- An array is read element by element. -/
  | array {n : Nat} {s s₁ r : Input} {items : List Parsed} (head : lexeme.Reads s .array s₁)
      (read : ElementsRead (parsed n) true s₁ items r) : ValueRead (n + 1) s (.array items) r
  /-- An object is read member by member. -/
  | object {n : Nat} {s s₁ r : Input} {members : List (String × Parsed)}
      (head : lexeme.Reads s .object s₁) (read : MembersRead (parsed n) true s₁ members r) :
    ValueRead (n + 1) s (.object members) r

/-- A scalar begins neither as an array nor as an object does. -/
theorem lexeme_ne_of_isScalar {w : Parsed} (h : w.isScalar = true) :
    Lexeme.ofTree w.tree ≠ .array ∧ Lexeme.ofTree w.tree ≠ .object := by
  cases w with
  | array => cases h
  | object => cases h
  | _ => exact ⟨by simp [Parsed.tree, Lexeme.ofTree], by simp [Parsed.tree, Lexeme.ofTree]⟩

theorem parsedMember_reads_iff {item : Reader Parsed} {before after : List (String × Parsed)}
    {key : String} {s r : Input} :
    (parsedMember item before key).Reads s after r ↔
      ∃ s₁ w, Begins s (.char ':') s₁ ∧ item.Reads s₁ w r ∧ after = before ++ [(key, w)] := by
  rw [Reader.reads_iff, parsedMember, map_pair_bind_eq_ok_iff]
  constructor
  · rintro ⟨⟨⟩, s₁, hcolon, _, h⟩
    obtain ⟨w, r', hvalue, _, h⟩ := map_pair_bind_eq_ok_iff.mp h
    obtain ⟨rfl, rfl⟩ := map_pair_pure_eq_ok_iff.mp h
    exact ⟨s₁, w, colon_reads_iff.mp hcolon, hvalue, rfl⟩
  · rintro ⟨s₁, w, hcolon, hvalue, rfl⟩
    have hcolon := colon_reads_iff.mpr hcolon
    exact ⟨(), s₁, hcolon, hcolon.1, hvalue.bind fun _ => rfl⟩

theorem members_parsed_reads_iff {item : Reader Parsed} {read : List (String × Parsed)}
    {s r : Input} :
    (members (parsedMember item) []).Reads s read r ↔ MembersRead item true s read r := by
  rw [members_reads_iff_of_collect fun _ _ _ _ _ => parsedMember_reads_iff]
  simp only [List.nil_append, exists_eq_right']

theorem valueRead_of_parsed {n : Nat} {w : Parsed} {s r : Input} (h : (parsed n).Reads s w r) :
    ValueRead n s w r := by
  have hinner : ∃ inner, parsed n = parsedWith inner ∧
      ∀ item, inner = some item → ∃ k, n = k + 1 ∧ item = parsed k := by
    cases n with
    | zero => exact ⟨none, rfl, fun item hitem => by cases hitem⟩
    | succ k =>
      exact ⟨some (parsed k), rfl, fun item hitem => ⟨k, rfl, (Option.some.inj hitem).symm⟩⟩
  obtain ⟨inner, hparsed, hinner⟩ := hinner
  rw [hparsed, Reader.reads_iff, parsedWith] at h
  obtain ⟨l, s₁, hhead, _, h⟩ := map_pair_bind_eq_ok_iff.mp h
  cases l with
  | array =>
    cases inner with
    | none => cases h
    | some item =>
      obtain ⟨k, rfl, rfl⟩ := hinner item rfl
      obtain ⟨items, hitems, rfl⟩ :=
        Reader.reads_map_iff.mp (reads_of_keep h fun _ => rfl)
      exact .array hhead (elements_reads_iff.mp hitems)
  | object =>
    cases inner with
    | none => cases h
    | some item =>
      obtain ⟨k, rfl, rfl⟩ := hinner item rfl
      obtain ⟨read, hread, rfl⟩ :=
        Reader.reads_map_iff.mp (reads_of_keep h fun _ => rfl)
      exact .object hhead (members_parsed_reads_iff.mp hread)
  | _ =>
    obtain ⟨rfl, rfl⟩ := map_pair_pure_eq_ok_iff.mp h
    exact .scalar rfl hhead

/-! A document is what it begins as. -/

namespace ValueRead

variable {n : Nat} {w : Parsed} {s s₁ r : Input}

theorem eq_string {text : String} (h : ValueRead n s w r)
    (head : lexeme.Reads s (.string text) s₁) : w = .string text ∧ r = s₁ := by
  cases h with
  | scalar _ hhead =>
    obtain ⟨hlexeme, rfl⟩ := head.unique hhead
    cases w with
    | string text' => exact ⟨congrArg Parsed.string (Lexeme.string.inj hlexeme).symm, rfl⟩
    | _ => cases hlexeme
  | array hhead => cases (head.unique hhead).1
  | object hhead => cases (head.unique hhead).1

theorem exists_elements (h : ValueRead n s w r) (head : lexeme.Reads s .array s₁) :
    ∃ k items, n = k + 1 ∧ w = .array items ∧ ElementsRead (parsed k) true s₁ items r := by
  cases h with
  | scalar hscalar hhead =>
    exact absurd (head.unique hhead).1.symm (lexeme_ne_of_isScalar hscalar).1
  | array hhead hitems =>
    obtain ⟨-, rfl⟩ := head.unique hhead
    exact ⟨_, _, rfl, rfl, hitems⟩
  | object hhead => cases (head.unique hhead).1

theorem exists_members (h : ValueRead n s w r) (head : lexeme.Reads s .object s₁) :
    ∃ k members, n = k + 1 ∧ w = .object members ∧ MembersRead (parsed k) true s₁ members r := by
  cases h with
  | scalar hscalar hhead =>
    exact absurd (head.unique hhead).1.symm (lexeme_ne_of_isScalar hscalar).2
  | array hhead => cases (head.unique hhead).1
  | object hhead hmembers =>
    obtain ⟨-, rfl⟩ := head.unique hhead
    exact ⟨_, _, rfl, rfl, hmembers⟩

end ValueRead

end ConfigSchema.Reading
