import ConfigSchema.Proofs.Reading.Agreement
import ConfigSchema.Reading.Record

/-!
# Records are read alike from text and from a tree

The members of a record stand in a text in any order, with members between them that the record
does not have and that may be repeated; a member of its own that is repeated is a fault. The
tree brings the members in the order of their keys, and has forgotten about repetitions. What
makes the two agree is that the members are independent of one another
(`ConfigSchema.Reading.Independent`): a member that has been read is known to be there, and the
members that are read do not get in each other's way, so their order does not matter
(`ConfigSchema.Reading.RecordShape.foldlM_lastEntries_eq_ok_iff`).

In an array the members stand in the order of the record in both ways, and there is nothing
that could be skipped.
-/

namespace ConfigSchema.Reading

open Json

variable {α σ : Type} {n : Nat}

/-! ### Independent members -/

/-- The changes of a draft that are read for a member, in one way or the other. -/
def Member.Changes (m : Member σ) (change : σ → σ) : Prop :=
  (∃ s r, m.decoder.ofText.Reads s change r) ∨ ∃ j, m.decoder.ofTree j = .ok change

/-- **A member is apart from another one**: what is read for it leaves the other one alone. -/
structure Member.Apart (m m' : Member σ) : Prop where
  /-- The other one is there if it was before. -/
  given : ∀ change, m.Changes change → ∀ draft, m'.given (change draft) = m'.given draft
  /-- The two can be read in either order. -/
  comm : ∀ change change', m.Changes change → m'.Changes change' →
    ∀ draft, change (change' draft) = change' (change draft)

/-- **The members of a record are independent**: a draft knows which of them it has, and members
with different names are apart. -/
structure Independent (blank : σ) (ms : List (Member σ)) : Prop where
  /-- At the start no member has been read. -/
  given_blank : ∀ m ∈ ms, m.given blank = false
  /-- A member that is read is there afterwards. -/
  given_own : ∀ m ∈ ms, ∀ change, m.Changes change → ∀ draft, m.given (change draft) = true
  /-- Two members do not get in each other's way. -/
  apart : ∀ m ∈ ms, ∀ m' ∈ ms, m.name ≠ m'.name → m.Apart m'

namespace Member

variable {β β' : Type} {name name' : String} {optional optional' : Bool} {get : σ → Option β}
  {set : β → σ → σ} {get' : σ → Option β'} {set' : β' → σ → σ} {decoder : Decoder β}
  {decoder' : Decoder β'} {change : σ → σ}

/-- A member that is one part of the draft is read by setting it. -/
theorem Changes.exists_set (h : (Member.of name optional get set decoder).Changes change) :
    ∃ x, change = set x := by
  rcases h with ⟨s, r, h⟩ | ⟨j, h⟩
  · obtain ⟨x, -, rfl⟩ := Reader.reads_map_iff.mp h
    exact ⟨x, rfl⟩
  · obtain ⟨x, -, rfl⟩ := Outcome.map_eq_ok_iff.mp h
    exact ⟨x, rfl⟩

theorem given_of (hget : ∀ x draft, get (set x draft) = some x) :
    ∀ change, (Member.of name optional get set decoder).Changes change →
      ∀ draft, (Member.of name optional get set decoder).given (change draft) = true := by
  intro change h draft
  obtain ⟨x, rfl⟩ := h.exists_set
  exact congrArg Option.isSome (hget x draft)

theorem apart_of (hget : ∀ x draft, get' (set x draft) = get' draft)
    (hset : ∀ x y draft, set x (set' y draft) = set' y (set x draft)) :
    (Member.of name optional get set decoder).Apart
      (Member.of name' optional' get' set' decoder') := by
  constructor
  · intro change h draft
    obtain ⟨x, rfl⟩ := h.exists_set
    exact congrArg Option.isSome (hget x draft)
  · intro change change' h h' draft
    obtain ⟨x, rfl⟩ := h.exists_set
    obtain ⟨y, rfl⟩ := h'.exists_set
    exact hset x y draft

end Member

namespace RecordShape

variable {ms : List (Member σ)} {m : Member σ} {key : String} {draft draft' last : σ}
  {s r r' : Input}

/-- The member of the record with a name. -/
def named? (ms : List (Member σ)) (key : String) : Option (Member σ) :=
  ms.find? fun m => m.name = key

theorem mem_of_named? (h : named? ms key = some m) : m ∈ ms := List.mem_of_find?_eq_some h

theorem name_of_named? (h : named? ms key = some m) : m.name = key := by
  simpa using List.find?_some h

/-! ### One member -/

theorem memberOfText_reads_iff_of_none (h : named? ms key = none) :
    (memberOfText ms draft key).Reads s draft' r ↔
      ∃ s₁, Begins s (.char ':') s₁ ∧ skip.Reads s₁ () r ∧ draft' = draft := by
  rw [Reader.reads_iff, memberOfText, show ms.find? _ = none from h]
  dsimp only
  constructor
  · intro h
    obtain ⟨⟨⟩, s₁, hcolon, _, h⟩ := map_pair_bind_eq_ok_iff.mp h
    obtain ⟨⟨⟩, r', hskip, _, h⟩ := map_pair_bind_eq_ok_iff.mp h
    obtain ⟨rfl, rfl⟩ := map_pair_pure_eq_ok_iff.mp h
    exact ⟨s₁, colon_reads_iff.mp hcolon, hskip, rfl⟩
  · rintro ⟨s₁, hcolon, hskip, rfl⟩
    have hcolon := colon_reads_iff.mpr hcolon
    exact hcolon.bind fun _ => hskip.bind fun _ => rfl

theorem memberOfText_reads_iff_of_some (h : named? ms key = some m) :
    (memberOfText ms draft key).Reads s draft' r ↔
      m.given draft = false ∧ ∃ s₁ change, Begins s (.char ':') s₁ ∧
        m.decoder.ofText.Reads s₁ change r ∧ draft' = change draft := by
  rw [Reader.reads_iff, memberOfText, show ms.find? _ = some m from h]
  dsimp only
  constructor
  · intro h
    split at h
    · cases h
    next hnew =>
    obtain ⟨⟨⟩, s₁, hcolon, _, h⟩ := map_pair_bind_eq_ok_iff.mp h
    obtain ⟨change, r', hchange, _, h⟩ := map_pair_bind_eq_ok_iff.mp h
    obtain ⟨rfl, rfl⟩ := map_pair_pure_eq_ok_iff.mp h
    exact ⟨Bool.eq_false_iff.mpr hnew, s₁, change, colon_reads_iff.mp hcolon, hchange, rfl⟩
  · rintro ⟨hnew, s₁, change, hcolon, hchange, rfl⟩
    have hcolon := colon_reads_iff.mpr hcolon
    rw [if_neg (by rw [hnew]; exact Bool.false_ne_true)]
    exact hcolon.bind fun _ => hchange.bind fun _ => rfl

/-- A member of a tree changes nothing if the record does not have it. -/
theorem memberOfTree_of_none {j : Tree} (h : named? ms key = none) :
    memberOfTree ms draft (key, j) = .ok draft := by
  rw [memberOfTree, show ms.find? _ = none from h]

/-- Otherwise it changes the draft as its decoder says. -/
theorem memberOfTree_eq_ok_iff_of_some {j : Tree} (h : named? ms key = some m) :
    memberOfTree ms draft (key, j) = .ok draft' ↔
      ∃ change, m.decoder.ofTree j = .ok change ∧ draft' = change draft := by
  rw [memberOfTree, show ms.find? _ = some m from h]
  dsimp only
  constructor
  · intro h
    obtain ⟨change, hchange, h⟩ := Outcome.bind_eq_ok_iff.mp h
    exact ⟨change, hchange, (Except.ok.inj h).symm⟩
  · rintro ⟨change, hchange, rfl⟩
    exact Outcome.bind_eq_ok_iff.mpr ⟨change, hchange, rfl⟩

/-! ### The order of members of a tree -/

/-- The record has a member with the name. -/
def has (ms : List (Member σ)) (key : String) : Bool := (named? ms key).isSome

/-- Members that the record does not have can be left out. -/
theorem foldlM_filter_has (entries : List (String × Tree)) (draft : σ) :
    (entries.filter fun e => has ms e.1).foldlM (memberOfTree ms) draft =
      entries.foldlM (memberOfTree ms) draft := by
  induction entries generalizing draft with
  | nil => rfl
  | cons e entries ih =>
    obtain ⟨key, j⟩ := e
    rw [List.filter_cons, List.foldlM_cons]
    split
    · rw [List.foldlM_cons]
      exact bind_congr ih
    · next hkey =>
      rw [memberOfTree_of_none (by simpa [has] using hkey), ih]
      rfl

section Order

variable {blank : σ} (hind : Independent blank ms)

include hind

/-- Two members with different keys can be read in either order. -/
theorem memberOfTree_comm {e e' : String × Tree} (hne : e.1 ≠ e'.1)
    (h : (memberOfTree ms draft e >>= fun draft => memberOfTree ms draft e') = .ok last) :
    (memberOfTree ms draft e' >>= fun draft => memberOfTree ms draft e) = .ok last := by
  obtain ⟨key, j⟩ := e
  obtain ⟨key', j'⟩ := e'
  obtain ⟨draft', hfirst, hsecond⟩ := Outcome.bind_eq_ok_iff.mp h
  rw [Outcome.bind_eq_ok_iff]
  cases hm : named? ms key with
  | none =>
    rw [memberOfTree_of_none hm] at hfirst
    obtain rfl := Except.ok.inj hfirst
    exact ⟨last, hsecond, memberOfTree_of_none hm⟩
  | some m =>
    obtain ⟨change, hchange, rfl⟩ := (memberOfTree_eq_ok_iff_of_some hm).mp hfirst
    cases hm' : named? ms key' with
    | none =>
      rw [memberOfTree_of_none hm'] at hsecond
      obtain rfl := Except.ok.inj hsecond
      exact ⟨draft, memberOfTree_of_none hm', hfirst⟩
    | some m' =>
      obtain ⟨change', hchange', rfl⟩ := (memberOfTree_eq_ok_iff_of_some hm').mp hsecond
      have hnames : m'.name ≠ m.name := by
        rw [name_of_named? hm, name_of_named? hm']
        exact hne.symm
      refine ⟨change' draft, (memberOfTree_eq_ok_iff_of_some hm').mpr ⟨change', hchange', rfl⟩,
        (memberOfTree_eq_ok_iff_of_some hm).mpr ⟨change, hchange, ?_⟩⟩
      exact (hind.apart m' (mem_of_named? hm') m (mem_of_named? hm) hnames).comm change' change
        (Or.inr ⟨j', hchange'⟩) (Or.inr ⟨j, hchange⟩) draft

/-- Members with different keys can be read in any order. -/
theorem foldlM_of_perm {entries entries' : List (String × Tree)} (hperm : entries.Perm entries')
    (hnodup : (entries.map Prod.fst).Nodup)
    (h : entries.foldlM (memberOfTree ms) draft = .ok last) :
    entries'.foldlM (memberOfTree ms) draft = .ok last := by
  induction hperm generalizing draft with
  | nil => exact h
  | cons e _ ih =>
    rw [List.foldlM_cons] at h ⊢
    obtain ⟨draft', he, h⟩ := Outcome.bind_eq_ok_iff.mp h
    exact Outcome.bind_eq_ok_iff.mpr ⟨draft', he, ih (List.nodup_cons.mp hnodup).2 h⟩
  | swap e e' entries =>
    have hne : e'.1 ≠ e.1 := fun heq => (List.nodup_cons.mp hnodup).1 (by simp [heq])
    simp only [List.foldlM_cons, ← bind_assoc] at h ⊢
    obtain ⟨draft', hpair, h⟩ := Outcome.bind_eq_ok_iff.mp h
    exact Outcome.bind_eq_ok_iff.mpr ⟨draft', memberOfTree_comm hind hne hpair, h⟩
  | trans hfirst _ ih ih' => exact ih' ((hfirst.map _).nodup_iff.mp hnodup) (ih hnodup h)

/-- **The tree of an object is read as its members stand in the text**, if none that the record
has stands there twice. -/
theorem foldlM_lastEntries_eq_ok_iff {members : List (String × Parsed)}
    (hnodup : ((members.filter fun e => has ms e.1).map Prod.fst).Nodup) :
    (Parsed.lastEntries members).foldlM (memberOfTree ms) draft = .ok last ↔
      (members.map fun e => (e.1, e.2.tree)).foldlM (memberOfTree ms) draft = .ok last := by
  have hkeys : ((members.map fun e => (e.1, e.2.tree)).filter fun e => has ms e.1).map Prod.fst =
      (members.filter fun e => has ms e.1).map Prod.fst := by
    rw [List.filter_map, List.map_map]
    rfl
  rw [← hkeys] at hnodup
  have hperm := Keyed.filter_ofList_perm hnodup
  rw [← foldlM_filter_has (Parsed.lastEntries members), ← foldlM_filter_has (members.map _)]
  exact ⟨foldlM_of_perm hind hperm ((hperm.map _).nodup_iff.mpr hnodup),
    foldlM_of_perm hind hperm.symm hnodup⟩

end Order

/-! ### The members of a text -/

/-- **A draft is made from members in the order of the text**: no member of the record is read
twice, and whatever is read is what the tree has, if that is accepted. -/
inductive Drafted (ms : List (Member σ)) : List (String × Parsed) → σ → σ → Prop
  /-- There are no more members. -/
  | nil {draft : σ} : Drafted ms [] draft draft
  /-- A member that the record does not have is passed over. -/
  | skipped {key : String} {w : Parsed} {members : List (String × Parsed)} {draft last : σ}
      (unknown : named? ms key = none) (rest : Drafted ms members draft last) :
    Drafted ms ((key, w) :: members) draft last
  /-- A member of the record is read. -/
  | read {key : String} {w : Parsed} {members : List (String × Parsed)} {draft last : σ}
      {m : Member σ} {change : σ → σ} (known : named? ms key = some m)
      (new : m.given draft = false) (changes : m.Changes change)
      (only : ∀ change', m.decoder.ofTree w.tree = .ok change' → change' = change)
      (rest : Drafted ms members (change draft) last) : Drafted ms ((key, w) :: members) draft last

/-- From a text a draft is made member by member, up to the end of the object. -/
theorem drafted_of_membersRun {read : List (String × Parsed)} {first : Bool}
    (hagrees : ∀ m ∈ ms, m.decoder.Agrees n) (hread : MembersRead (parsed n) first s read r)
    (hrun : MembersRun (memberOfText ms) first draft s last r') :
    r' = r ∧ Drafted ms read draft last := by
  induction hread generalizing draft with
  | nil hclose =>
    cases hrun with
    | done hclose' => exact ⟨(hclose'.unique hclose).2, .nil⟩
    | more hquoted =>
      obtain ⟨s₁, s₂, hsep, hquote, -⟩ := hquoted
      exact absurd hclose (hsep.not_begins hquote (by decide) (by decide))
  | @cons _ _ _ _ _ _ key w members hquoted hcolon hvalue _ ih =>
    obtain ⟨s₁, s₂, hsep, hquote, hkey⟩ := hquoted
    cases hrun with
    | done hclose => exact absurd hclose (hsep.not_begins hquote (by decide) (by decide))
    | more hquoted' hstep hrun =>
      obtain ⟨s₁', s₂', hsep', hquote', hkey'⟩ := hquoted'
      obtain rfl := hsep.unique hsep'
      obtain ⟨-, rfl⟩ := hquote.unique hquote'
      obtain ⟨rfl, rfl⟩ := hkey.unique hkey'
      cases hm : named? ms key with
      | none =>
        obtain ⟨s₃, hcolon', hskip, rfl⟩ := (memberOfText_reads_iff_of_none hm).mp hstep
        obtain ⟨-, rfl⟩ := hcolon.unique hcolon'
        obtain ⟨-, rfl⟩ := hskip.unique (skip_of_parsed hvalue)
        obtain ⟨rfl, hdrafted⟩ := ih hrun
        exact ⟨rfl, .skipped hm hdrafted⟩
      | some m =>
        obtain ⟨hnew, s₃, change, hcolon', hchange, rfl⟩ :=
          (memberOfText_reads_iff_of_some hm).mp hstep
        obtain ⟨-, rfl⟩ := hcolon.unique hcolon'
        obtain ⟨rfl, hsound⟩ := (hagrees m (mem_of_named? hm)).sound hvalue hchange
        obtain ⟨rfl, hdrafted⟩ := ih hrun
        exact ⟨rfl, .read hm hnew (Or.inl ⟨_, _, hchange⟩) hsound hdrafted⟩

/-- In the order of the text the tree makes no other draft. -/
theorem Drafted.eq_of_foldlM {members : List (String × Parsed)} {last' : σ}
    (h : Drafted ms members draft last)
    (htree : (members.map fun e => (e.1, e.2.tree)).foldlM (memberOfTree ms) draft = .ok last') :
    last' = last := by
  induction h with
  | nil => exact (Except.ok.inj htree).symm
  | skipped hm _ ih =>
    rw [List.map_cons, List.foldlM_cons, memberOfTree_of_none hm] at htree
    exact ih htree
  | read hm _ _ honly _ ih =>
    rw [List.map_cons, List.foldlM_cons] at htree
    obtain ⟨draft', hfirst, htree⟩ := Outcome.bind_eq_ok_iff.mp htree
    obtain ⟨change', hchange', rfl⟩ := (memberOfTree_eq_ok_iff_of_some hm).mp hfirst
    obtain rfl := honly change' hchange'
    exact ih htree

section Independent

variable {blank : σ} (hind : Independent blank ms)

include hind

/-- A draft that has been made has read every member of the record at most once, and none that
it has had before. -/
theorem Drafted.nodup {members : List (String × Parsed)} (h : Drafted ms members draft last) :
    ((members.filter fun e => has ms e.1).map Prod.fst).Nodup ∧
      ∀ e ∈ members, ∀ m, named? ms e.1 = some m → m.given draft = false := by
  induction h with
  | nil => exact ⟨List.nodup_nil, fun e he => by cases he⟩
  | skipped hm _ ih =>
    obtain ⟨hnodup, hnew⟩ := ih
    refine ⟨?_, List.forall_mem_cons.mpr ⟨fun m hm' => ?_, hnew⟩⟩
    · rwa [List.filter_cons_of_neg (by simp [has, hm])]
    · rw [hm] at hm'
      cases hm'
  | @read key w members draft last m change hm hnew hchanges _ _ ih =>
    obtain ⟨hnodup, hlater⟩ := ih
    -- the member that is read is known to be there from now on
    have hkey : ∀ e ∈ members, e.1 ≠ key := by
      rintro e he rfl
      have hgiven := hind.given_own m (mem_of_named? hm) change hchanges draft
      rw [hlater e he m hm] at hgiven
      cases hgiven
    refine ⟨?_, List.forall_mem_cons.mpr ⟨fun m' hm' => ?_, fun e he m' hm' => ?_⟩⟩
    · rw [List.filter_cons_of_pos (by simp [has, hm]), List.map_cons, List.nodup_cons]
      refine ⟨fun hmem => ?_, hnodup⟩
      obtain ⟨e, he, heq⟩ := List.mem_map.mp hmem
      exact hkey e (List.mem_filter.mp he).1 heq
    · obtain rfl := Option.some.inj (hm.symm.trans hm')
      exact hnew
    · have hnames : m.name ≠ m'.name := by
        rw [name_of_named? hm, name_of_named? hm']
        exact (hkey e he).symm
      have hapart := hind.apart m (mem_of_named? hm) m' (mem_of_named? hm') hnames
      rw [← hapart.given change hchanges draft]
      exact hlater e he m' hm'

/-- If no key occurs twice, and the tree is accepted, then the text is. -/
theorem membersRun_of_foldlM {read : List (String × Parsed)} {first : Bool}
    (hagrees : ∀ m ∈ ms, m.decoder.Agrees n) (hread : MembersRead (parsed n) first s read r)
    (hnodup : (read.map Prod.fst).Nodup) (hdistinct : ∀ e ∈ read, e.2.Distinct)
    (hnew : ∀ e ∈ read, ∀ m, named? ms e.1 = some m → m.given draft = false)
    (htree : (read.map fun e => (e.1, e.2.tree)).foldlM (memberOfTree ms) draft = .ok last) :
    MembersRun (memberOfText ms) first draft s last r := by
  induction hread generalizing draft with
  | nil hclose =>
    obtain rfl := Except.ok.inj htree
    exact .done hclose
  | @cons _ _ _ _ _ _ key w members hquoted hcolon hvalue _ ih =>
    obtain ⟨hkey, hnodup⟩ := List.nodup_cons.mp hnodup
    obtain ⟨hw, hdistinct⟩ := List.forall_mem_cons.mp hdistinct
    obtain ⟨hfirst, hnew⟩ := List.forall_mem_cons.mp hnew
    rw [List.map_cons, List.foldlM_cons] at htree
    cases hm : named? ms key with
    | none =>
      rw [memberOfTree_of_none hm] at htree
      exact .more hquoted ((memberOfText_reads_iff_of_none hm).mpr
        ⟨_, hcolon, skip_of_parsed hvalue, rfl⟩) (ih hnodup hdistinct hnew htree)
    | some m =>
      obtain ⟨draft', hdraft', htree⟩ := Outcome.bind_eq_ok_iff.mp htree
      obtain ⟨change, hchange, rfl⟩ := (memberOfTree_eq_ok_iff_of_some hm).mp hdraft'
      have hread := (hagrees m (mem_of_named? hm)).complete hvalue hw hchange
      refine .more hquoted ((memberOfText_reads_iff_of_some hm).mpr
        ⟨hfirst m hm, _, change, hcolon, hread, rfl⟩) (ih hnodup hdistinct ?_ htree)
      intro e he m' hm'
      have hnames : m.name ≠ m'.name := by
        rw [name_of_named? hm, name_of_named? hm']
        rintro rfl
        have hmem : e.1 ∈ members.map Prod.fst := List.mem_map_of_mem he
        exact hkey hmem
      have hapart := hind.apart m (mem_of_named? hm) m' (mem_of_named? hm') hnames
      rw [hapart.given change (Or.inr ⟨_, hchange⟩)]
      exact hnew e he m' hm'

end Independent

/-! ### Records in arrays -/

section Items

variable {tooShort : Nat → Fault} {index count : Nat} {first : Bool} {ws : List Parsed}

theorem itemsOfText_nil_reads_iff :
    (itemsOfText tooShort [] index first draft).Reads s last r ↔
      last = draft ∧ Begins s (.char ']') r := by
  rw [itemsOfText, Reader.reads_map_iff]
  constructor
  · rintro ⟨⟨⟩, hclose, rfl⟩
    exact ⟨rfl, endOfArray_reads_iff.mp hclose⟩
  · rintro ⟨rfl, hclose⟩
    exact ⟨(), endOfArray_reads_iff.mpr hclose, rfl⟩

theorem itemsOfText_cons_reads_iff :
    (itemsOfText tooShort (m :: ms) index first draft).Reads s last r ↔
      (∃ s₁ x s₂ change s₃, Separated first s s₁ ∧ Begins s₁ x s₂ ∧ x ≠ .char ']' ∧
        m.decoder.ofText.Reads (x :: s₂) change s₃ ∧
        (itemsOfText tooShort ms (index + 1) false (change draft)).Reads s₃ last r) ∨
      (m.optional = true ∧ ∃ t, Begins s (.char ']') t ∧
        (itemsOfText tooShort ms (index + 1) first draft).Reads (.char ']' :: t) last r) := by
  rw [Reader.reads_iff, itemsOfText]
  constructor
  · intro h
    obtain ⟨here, s', hnext, _, h⟩ := map_pair_bind_eq_ok_iff.mp h
    cases here with
    | true =>
      obtain ⟨s₁, x, s₂, hsep, hbegins, hne, rfl⟩ := nextElement_reads_true_iff.mp hnext
      obtain ⟨change, s₃, hchange, _, h⟩ := map_pair_bind_eq_ok_iff.mp h
      have hlast := reads_of_keep h fun _ => rfl
      exact Or.inl ⟨s₁, x, s₂, change, s₃, hsep, hbegins, hne, hchange, hlast⟩
    | false =>
      obtain ⟨t, hclose, rfl⟩ := nextElement_reads_false_iff.mp hnext
      dsimp only at h
      rw [if_neg Bool.false_ne_true] at h
      split at h
      · next hoptional =>
        have hlast := reads_of_keep h fun _ => rfl
        exact Or.inr ⟨hoptional, t, hclose, hlast⟩
      · cases h
  · rintro (⟨s₁, x, s₂, change, s₃, hsep, hbegins, hne, hchange, hlast⟩ |
      ⟨hoptional, t, hclose, hlast⟩)
    · have hnext := nextElement_reads_true_iff.mpr ⟨s₁, x, s₂, hsep, hbegins, hne, rfl⟩
      exact hnext.bind fun _ => hchange.bind fun _ => hlast.keep fun _ => rfl
    · have hnext : (nextElement first).Reads s false (.char ']' :: t) :=
        nextElement_reads_false_iff.mpr ⟨t, hclose, rfl⟩
      refine hnext.bind fun _ => ?_
      dsimp only
      rw [if_neg Bool.false_ne_true, if_pos hoptional]
      exact hlast.keep fun _ => rfl

/-- From the elements of an array the same draft is made, up to the end of the array. -/
theorem itemsOfText_sound (hagrees : ∀ m ∈ ms, m.decoder.Agrees n)
    (hws : ElementsRead (parsed n) first s ws r)
    (hread : (itemsOfText tooShort ms index first draft).Reads s last r') :
    r' = r ∧ ∀ last', itemsOfTree tooShort count ms index draft (ws.map Parsed.tree) = .ok last' →
      last' = last := by
  induction ms generalizing s ws index first draft with
  | nil =>
    obtain ⟨rfl, hclose⟩ := itemsOfText_nil_reads_iff.mp hread
    cases hws with
    | nil hclose' => exact ⟨(hclose.unique hclose').2, fun last' h => (Except.ok.inj h).symm⟩
    | cons hsep hbegins hne => exact absurd hclose (hsep.not_begins hbegins hne (by decide))
  | cons m ms ih =>
    obtain ⟨hm, hms⟩ := List.forall_mem_cons.mp hagrees
    rcases itemsOfText_cons_reads_iff.mp hread with
      ⟨s₁, x, s₂, change, s₃, hsep, hbegins, hne, hchange, hlast⟩ | ⟨hoptional, t, hclose, hlast⟩
    · cases hws with
      | nil hclose => exact absurd hclose (hsep.not_begins hbegins hne (by decide))
      | cons hsep' hbegins' _ hhead htail =>
        obtain rfl := hsep.unique hsep'
        obtain ⟨rfl, rfl⟩ := hbegins.unique hbegins'
        obtain ⟨rfl, htree⟩ := hm.sound hhead hchange
        obtain ⟨rfl, hrest⟩ := ih hms htail hlast
        refine ⟨rfl, fun last' h => ?_⟩
        rw [List.map_cons, itemsOfTree] at h
        obtain ⟨change', hchange', h⟩ := Outcome.bind_eq_ok_iff.mp h
        obtain rfl := htree change' hchange'
        exact hrest last' h
    · cases hws with
      | nil hclose' =>
        obtain ⟨-, rfl⟩ := hclose.unique hclose'
        obtain ⟨rfl, hrest⟩ := ih hms (.nil hclose.here) hlast
        refine ⟨rfl, fun last' h => ?_⟩
        rw [List.map_nil, itemsOfTree, if_pos hoptional] at h
        exact hrest last' h
      | cons hsep hbegins hne => exact absurd hclose (hsep.not_begins hbegins hne (by decide))

/-- If the tree of an array is accepted, then its text is. -/
theorem itemsOfText_complete (hagrees : ∀ m ∈ ms, m.decoder.Agrees n)
    (hws : ElementsRead (parsed n) first s ws r) (hdistinct : ∀ w ∈ ws, w.Distinct)
    (htree : itemsOfTree tooShort count ms index draft (ws.map Parsed.tree) = .ok last) :
    (itemsOfText tooShort ms index first draft).Reads s last r := by
  induction ms generalizing s ws index first draft with
  | nil =>
    cases hws with
    | nil hclose =>
      obtain rfl := Except.ok.inj htree
      exact itemsOfText_nil_reads_iff.mpr ⟨rfl, hclose⟩
    | cons => cases htree
  | cons m ms ih =>
    obtain ⟨hm, hms⟩ := List.forall_mem_cons.mp hagrees
    cases hws with
    | nil hclose =>
      rw [List.map_nil, itemsOfTree] at htree
      split at htree
      · next hoptional =>
        exact itemsOfText_cons_reads_iff.mpr (Or.inr ⟨hoptional, _, hclose,
          ih hms (.nil hclose.here) hdistinct htree⟩)
      · cases htree
    | cons hsep hbegins hne hhead htail =>
      obtain ⟨hw, hdistinct⟩ := List.forall_mem_cons.mp hdistinct
      rw [List.map_cons, itemsOfTree] at htree
      obtain ⟨change, hchange, htree⟩ := Outcome.bind_eq_ok_iff.mp htree
      exact itemsOfText_cons_reads_iff.mpr (Or.inl ⟨_, _, _, change, _, hsep, hbegins, hne,
        hm.complete hhead hw hchange, ih hms htail hdistinct htree⟩)

end Items

/-! ### The decoder of a record -/

section Decoder

variable {shape : RecordShape α σ} {x : α}

/-- A record is read from an object or from an array. -/
theorem decoder_reads_iff :
    (shape.decoder (some ms)).ofText.Reads s x r ↔
      ∃ draft, shape.finish draft = .ok x ∧
        ((∃ s₁, lexeme.Reads s .object s₁ ∧
            MembersRun (memberOfText ms) true shape.blank s₁ draft r) ∨
          ∃ s₁, lexeme.Reads s .array s₁ ∧
            (itemsOfText (fun index => .invalidLength index (shape.arity ms.length)) ms 0 true
              shape.blank).Reads s₁ draft r) := by
  rw [Reader.reads_iff, decoder]
  dsimp only
  constructor
  · intro h
    obtain ⟨l, s₁, hhead, _, h⟩ := map_pair_bind_eq_ok_iff.mp h
    cases l with
    | object =>
      obtain ⟨draft, r', hread, _, h⟩ := map_pair_bind_eq_ok_iff.mp h
      obtain ⟨y, hfinish, h⟩ := map_pair_judge_eq_ok_iff.mp h
      obtain ⟨rfl, rfl⟩ := map_pair_pure_eq_ok_iff.mp h
      exact ⟨draft, hfinish, Or.inl ⟨s₁, hhead, members_reads_iff.mp hread⟩⟩
    | array =>
      obtain ⟨draft, r', hread, _, h⟩ := map_pair_bind_eq_ok_iff.mp h
      obtain ⟨y, hfinish, h⟩ := map_pair_judge_eq_ok_iff.mp h
      obtain ⟨rfl, rfl⟩ := map_pair_pure_eq_ok_iff.mp h
      exact ⟨draft, hfinish, Or.inr ⟨s₁, hhead, hread⟩⟩
    | _ => cases h
  · rintro ⟨draft, hfinish, ⟨s₁, hhead, hrun⟩ | ⟨s₁, hhead, hread⟩⟩
    · have hread := members_reads_iff.mpr hrun
      exact hhead.bind fun _ => map_pair_bind_eq_ok_iff.mpr
        ⟨draft, r, hread, hread.1, map_pair_judge_eq_ok_iff.mpr ⟨x, hfinish, rfl⟩⟩
    · exact hhead.bind fun _ => map_pair_bind_eq_ok_iff.mpr
        ⟨draft, r, hread, hread.1, map_pair_judge_eq_ok_iff.mpr ⟨x, hfinish, rfl⟩⟩

/-- Where no level is left no record is read at all. -/
theorem not_decoder_none_reads : ¬ (shape.decoder none).ofText.Reads s x r := by
  intro h
  rw [Reader.reads_iff, decoder] at h
  obtain ⟨l, s₁, -, _, h⟩ := map_pair_bind_eq_ok_iff.mp h
  cases l <;> cases h

theorem decoder_none_agrees : (shape.decoder none).Agrees n :=
  Decoder.agrees_of_refuses (fun _ _ _ => not_decoder_none_reads) fun j x h => by
    cases j <;> cases h

/-- **A record agrees** if its members do and are independent of one another. -/
theorem decoder_agrees (hind : Independent shape.blank ms)
    (hagrees : ∀ m ∈ ms, m.decoder.Agrees n) : (shape.decoder (some ms)).Agrees (n + 1) := by
  constructor
  · intro s r r' w x hw hx
    obtain ⟨draft, hfinish, ⟨s₁, hhead, hrun⟩ | ⟨s₁, hhead, hread⟩⟩ := decoder_reads_iff.mp hx
    · obtain ⟨k, members, hk, rfl, hmembers⟩ := (valueRead_of_parsed hw).exists_members hhead
      obtain rfl := Nat.succ.inj hk
      obtain ⟨rfl, hdrafted⟩ := drafted_of_membersRun hagrees hmembers hrun
      refine ⟨rfl, fun y hy => ?_⟩
      rw [Parsed.tree_object] at hy
      obtain ⟨draft', hdraft', hy⟩ := Outcome.bind_eq_ok_iff.mp hy
      have hnodup := (hdrafted.nodup hind).1
      obtain rfl := hdrafted.eq_of_foldlM
        ((foldlM_lastEntries_eq_ok_iff hind hnodup).mp hdraft')
      exact Except.ok.inj (hy.symm.trans hfinish)
    · obtain ⟨k, items, hk, rfl, hitems⟩ := (valueRead_of_parsed hw).exists_elements hhead
      obtain rfl := Nat.succ.inj hk
      obtain ⟨rfl, hdrafted⟩ := itemsOfText_sound hagrees hitems hread
      refine ⟨rfl, fun y hy => ?_⟩
      rw [Parsed.tree_array] at hy
      obtain ⟨draft', hdraft', hy⟩ := Outcome.bind_eq_ok_iff.mp hy
      obtain rfl := hdrafted draft' hdraft'
      exact Except.ok.inj (hy.symm.trans hfinish)
  · intro s r w x hw hdistinct hx
    cases valueRead_of_parsed hw with
    | scalar hscalar =>
      cases w with
      | array => cases hscalar
      | object => cases hscalar
      | _ => cases hx
    | array hhead hitems =>
      rw [Parsed.tree_array] at hx
      obtain ⟨draft, hdraft, hfinish⟩ := Outcome.bind_eq_ok_iff.mp hx
      exact decoder_reads_iff.mpr ⟨draft, hfinish, Or.inr ⟨_, hhead,
        itemsOfText_complete hagrees hitems (Parsed.distinct_array_iff.mp hdistinct) hdraft⟩⟩
    | object hhead hmembers =>
      rw [Parsed.tree_object] at hx
      obtain ⟨draft, hdraft, hfinish⟩ := Outcome.bind_eq_ok_iff.mp hx
      obtain ⟨hnodup, hvalues⟩ := Parsed.distinct_object_iff.mp hdistinct
      have htext := (foldlM_lastEntries_eq_ok_iff hind
        (hnodup.sublist (List.filter_sublist.map Prod.fst))).mp hdraft
      exact decoder_reads_iff.mpr ⟨draft, hfinish, Or.inl ⟨_, hhead,
        membersRun_of_foldlM hind hagrees hmembers hnodup hvalues
          (fun _ _ m hm => hind.given_blank m (mem_of_named? hm)) htext⟩⟩

end Decoder

end RecordShape

end ConfigSchema.Reading
