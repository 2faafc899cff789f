import ConfigSchema.Reading.StringLiteral

/-!
# Elements and members

What stands between the brackets of an array or the braces of an object is read by two
loops, given a reader for one element or one member. The loops know about commas and closing
brackets alone: what an element is, and what becomes of a member, is for the reader that
they are given. A member is read from its key on; its reader also takes the colon, so that
it can turn a key down before.
-/

namespace ConfigSchema.Reading

variable {α σ : Type}

/-! ### Arrays -/

/-- Where the next element of an array begins, if there is one; the bracket that ends the
array is left in place. -/
def nextElement (first : Bool) : Reader Bool := fun s =>
  match s.next? with
  | none => .error .endInList
  | some ⟨x, r, h⟩ =>
    if x = .char ']' then .ok ⟨false, x :: r, h⟩
    else if first then .ok ⟨true, x :: r, h⟩
    else if x = .char ',' then
      match r.next? with
      | none => .error .endInValue
      | some ⟨y, r', h'⟩ =>
        if y = .char ']' then .error .trailingComma
        else .ok ⟨true, y :: r', Nat.le_of_lt (Nat.lt_of_le_of_lt h' h)⟩
    else .error .expectedCommaOrListEnd

/-- Takes the bracket that ends an array of which all elements have been read. A comma here
means that there are more elements than wanted. -/
def endOfArray : Reader Unit := fun s =>
  match s.next? with
  | none => .error .endInList
  | some ⟨x, r, h⟩ =>
    if x = .char ']' then .ok ((Taken.nothing () r).behind h)
    else if x = .char ',' then
      match r.next? with
      | none => .error .trailingCharacters
      | some ⟨y, _, _⟩ =>
        if y = .char ']' then .error .trailingComma else .error .trailingCharacters
    else .error .trailingCharacters

/-- The elements that follow an element, up to the bracket that ends the array. -/
def moreElements (item : Reader α) (s : Input) : Except Fault (Taken (List α) s) :=
  match s.next? with
  | none => .error .endInList
  | some ⟨x, r, h⟩ =>
    if x = .char ']' then .ok ((Taken.nothing [] r).behind h)
    else if x = .char ',' then
      match r.next? with
      | none => .error .endInValue
      | some ⟨y, r', h'⟩ =>
        if y = .char ']' then .error .trailingComma
        else do
          let head ← item (y :: r')
          let tail ← moreElements item head.rest
          return ⟨head.value :: tail.value, tail.rest, by
            have hhead := head.bound
            have htail := tail.bound
            simp only [List.length_cons] at hhead
            omega⟩
    else .error .expectedCommaOrListEnd
  termination_by s.length
  decreasing_by
    have hhead := head.bound
    simp only [List.length_cons] at hhead
    omega

/-- **The elements of an array**, after its opening bracket. -/
def elements (item : Reader α) : Reader (List α) := fun s =>
  match s.next? with
  | none => .error .endInList
  | some ⟨x, r, h⟩ =>
    if x = .char ']' then .ok ((Taken.nothing [] r).behind h)
    else do
      let head ← item (x :: r)
      let tail ← moreElements item head.rest
      return ⟨head.value :: tail.value, tail.rest,
        Nat.le_trans tail.bound (Nat.le_trans head.bound h)⟩

/-! ### Objects -/

/-- Reads a key and its member, given the first symbol of the key and what follows it. -/
def keyAndMember (member : σ → String → Reader σ) (state : σ) (first : Symbol) : Reader σ :=
  fun s =>
    if first = .char '"' then do
      let key ← string s
      let next ← member state key.value key.rest
      return next.weaken key.bound
    else .error .keyNotString

/-- The members that follow a member, up to the brace that ends the object. -/
def moreMembers (member : σ → String → Reader σ) (state : σ) (s : Input) :
    Except Fault (Taken σ s) :=
  match s.next? with
  | none => .error .endInObject
  | some ⟨x, r, h⟩ =>
    if x = .char '\x7d' then .ok ((Taken.nothing state r).behind h)
    else if x = .char ',' then
      match r.next? with
      | none => .error .endInValue
      | some ⟨y, r', h'⟩ =>
        if y = .char '\x7d' then .error .trailingComma
        else do
          let next ← keyAndMember member state y r'
          let last ← moreMembers member next.value next.rest
          return last.weaken (by
            have hnext := next.bound
            omega)
    else .error .expectedCommaOrObjectEnd
  termination_by s.length
  decreasing_by
    have hnext := next.bound
    omega

/-- **The members of an object**, after its opening brace. `member` reads one of them after
its key and carries a state along. -/
def members (member : σ → String → Reader σ) (state : σ) : Reader σ := fun s =>
  match s.next? with
  | none => .error .endInObject
  | some ⟨x, r, h⟩ =>
    if x = .char '\x7d' then .ok ((Taken.nothing state r).behind h)
    else do
      let next ← keyAndMember member state x r
      let last ← moreMembers member next.value next.rest
      return (last.weaken next.bound).behind h

end ConfigSchema.Reading
