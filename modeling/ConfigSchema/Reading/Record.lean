import ConfigSchema.Reading.Decoder
import ConfigSchema.Reading.Skip

/-!
# Records

A record is a structure with named members. It is read from an object, whose members may
come in any order, or from an array, whose elements are the members in the order in which
the record lists them. Members of other names are skipped in an object; in an array there
is no room for anything else. An optional member may be absent, in an array from the end.

While it is read a record is a draft, which starts blank; each member, once read, is a
change of the draft, and at the end the draft is turned into the value, unless a member
that is needed is still missing. In a text a member that is given twice is a fault as soon
as its second key is read.
-/

namespace ConfigSchema.Reading

variable {α β σ : Type}

/-- One member of a record whose drafts are of type `σ`. -/
structure Member (σ : Type) where
  /-- The key in an object. -/
  name : String
  /-- It may be absent. -/
  optional : Bool
  /-- A draft has it already. -/
  given : σ → Bool
  /-- Reads it, as a change of the draft. -/
  decoder : Decoder (σ → σ)

/-- A member that is one part of the draft. -/
def Member.of (name : String) (optional : Bool) (get : σ → Option β) (set : β → σ → σ)
    (decoder : Decoder β) : Member σ where
  name := name
  optional := optional
  given draft := (get draft).isSome
  decoder := decoder.map set

/-- What a draft has for a member that is needed. -/
def needed (name : String) (part : Option β) : Except Fault β :=
  match part with
  | none => .error (.missingField name)
  | some x => .ok x

/-- A record, before its members are known. -/
structure RecordShape (α σ : Type) where
  /-- The name of the structure in a fault. -/
  name : String
  /-- The draft without any member. -/
  blank : σ
  /-- The value of a draft that nothing more is added to. -/
  finish : σ → Except Fault α

namespace RecordShape

/-- What a fault says about the length of an array that is too short. -/
def arity (shape : RecordShape α σ) (count : Nat) : String :=
  shape.name ++ " with " ++ toString count ++ (if count = 1 then " element" else " elements")

/-! ### From text -/

/-- Reads a member of an object after its key. -/
def memberOfText (members : List (Member σ)) (draft : σ) (key : String) : Reader σ := fun s =>
  match members.find? fun m => m.name = key with
  | none => do
    let sign ← colon s
    let skipped ← skip sign.rest
    return ⟨draft, skipped.rest, Nat.le_trans skipped.bound sign.bound⟩
  | some m =>
    if m.given draft then .error (.duplicateField m.name)
    else do
      let sign ← colon s
      let change ← m.decoder.ofText sign.rest
      return ⟨change.value draft, change.rest, Nat.le_trans change.bound sign.bound⟩

/-- Reads the members from an array, after its opening bracket or some elements. `index`
counts the members before, `tooShort` is the fault if a member of an index is needed and
the array has ended. -/
def itemsOfText (tooShort : Nat → Fault) :
    List (Member σ) → (index : Nat) → (first : Bool) → (draft : σ) → Reader σ
  | [], _, _, draft => Reader.map (fun _ => draft) endOfArray
  | m :: ms, index, first, draft => fun s => do
    let here ← nextElement first s
    if here.value then
      let change ← m.decoder.ofText here.rest
      let last ← itemsOfText tooShort ms (index + 1) false (change.value draft) change.rest
      return last.weaken (Nat.le_trans change.bound here.bound)
    else if m.optional then
      let last ← itemsOfText tooShort ms (index + 1) first draft here.rest
      return last.weaken here.bound
    else throw (tooShort index)

/-! ### From a tree -/

/-- Reads a member of an object of a tree. -/
def memberOfTree (members : List (Member σ)) (draft : σ) (entry : String × Json.Tree) :
    Except Fault σ :=
  match members.find? fun m => m.name = entry.1 with
  | none => .ok draft
  | some m => do
    let change ← m.decoder.ofTree entry.2
    return change draft

/-- Reads the members from an array of a tree; `count` is the number of its elements. -/
def itemsOfTree (tooShort : Nat → Fault) (count : Nat) :
    List (Member σ) → (index : Nat) → (draft : σ) → List Json.Tree → Except Fault σ
  | [], _, draft, [] => .ok draft
  | [], _, _, _ :: _ => .error (.invalidLength count "fewer elements in array")
  | m :: ms, index, draft, j :: js => do
    let change ← m.decoder.ofTree j
    itemsOfTree tooShort count ms (index + 1) (change draft) js
  | m :: ms, index, draft, [] =>
    if m.optional then itemsOfTree tooShort count ms (index + 1) draft []
    else .error (tooShort index)

/-! ### The decoder -/

/-- **The decoder of a record**, given its members, one level down. -/
def decoder (shape : RecordShape α σ) (inner : Option (List (Member σ))) : Decoder α :=
  let tooShort (members : List (Member σ)) (index : Nat) : Fault :=
    .invalidLength index (shape.arity members.length)
  { ofText := fun s => do
      let head ← lexeme s
      let draft ← match head.value with
        | .object =>
          descend inner (fun ms => members (memberOfText ms) shape.blank) head.rest
        | .array =>
          descend inner (fun ms => itemsOfText (tooShort ms) ms 0 true shape.blank) head.rest
        | found => .error (.invalidType found shape.name)
      let x ← shape.finish draft.value
      return ⟨x, draft.rest, Nat.le_trans draft.bound head.bound⟩
    ofTree := fun j => do
      let draft ← match j, inner with
        | .object _, none => .error .tooDeep
        | .array _, none => .error .tooDeep
        | .object entries, some ms => entries.foldlM (memberOfTree ms) shape.blank
        | .array items, some ms =>
          itemsOfTree (tooShort ms) items.length ms 0 shape.blank items
        | j, _ => .error (.invalidType (.ofTree j) shape.name)
      shape.finish draft }

end RecordShape

end ConfigSchema.Reading
