import ConfigSchema.Proofs.Reading.Parsed

/-!
# Reading documents with their numbers as they are spelled

The value of a number does not tell how it was written: `1.0` and `1e0` are one floating point
number, and an integer may have become one as well. Here a text is read with the literal of
every number (`ConfigSchema.Reading.spelled`), next to the value that the literal has. The
parsed document is what is left if the literals are forgotten
(`ConfigSchema.Reading.parsed_eq_map_spelled`), so whatever is read as a tree has been read
with all its literals, and no text is read with literals that would not be read as a tree
(`ConfigSchema.Reading.readTree_eq_map_readAll_spelled`).
-/

namespace ConfigSchema.Reading

open Json

/-! ### Documents -/

/-- **A number as it is written**, and its value. -/
structure WrittenNumber where
  /-- The literal in the text. -/
  literal : NumberLiteral
  /-- The value of the literal. -/
  value : Json.Number
  /-- The literal has a value, and it is this one. -/
  value_eq : literal.value = .ok value

/-- A document with all members that are written, and with all numbers as they are written. -/
inductive Spelled where
  /-- The null value. -/
  | null
  /-- A truth value. -/
  | boolean (value : Bool)
  /-- A number. -/
  | number (number : WrittenNumber)
  /-- A string. -/
  | string (value : String)
  /-- An array, its elements in order. -/
  | array (items : List Spelled)
  /-- An object, its members in the order in which they are written. -/
  | object (members : List (String × Spelled))

namespace Spelled

mutual

/-- **The document without its literals.** -/
def parsed : Spelled → Parsed
  | .null => .null
  | .boolean value => .boolean value
  | .number n => .number n.value
  | .string value => .string value
  | .array items => .array (parsedItems items)
  | .object members => .object (parsedMembers members)

/-- The elements of an array without their literals. -/
def parsedItems : List Spelled → List Parsed
  | [] => []
  | w :: ws => parsed w :: parsedItems ws

/-- The members of an object without their literals. -/
def parsedMembers : List (String × Spelled) → List (String × Parsed)
  | [] => []
  | (key, w) :: members => (key, parsed w) :: parsedMembers members

end

theorem parsedItems_eq_map (items : List Spelled) : parsedItems items = items.map parsed := by
  induction items with
  | nil => rfl
  | cons w ws ih => rw [parsedItems, ih, List.map_cons]

theorem parsedMembers_eq_map (members : List (String × Spelled)) :
    parsedMembers members = members.map fun m => (m.1, m.2.parsed) := by
  induction members with
  | nil => rfl
  | cons m ms ih => rw [parsedMembers, ih, List.map_cons]

end Spelled

/-! ### The reader -/

/-- Reads a number after its sign, and keeps the literal. -/
def writtenNumber (negative : Bool) : Reader WrittenNumber := fun s => do
  let literal ← NumberLiteral.readUnsigned .endInValue negative s
  match hvalue : literal.value.value with
  | .ok value => return ⟨⟨literal.value, value, hvalue⟩, literal.rest, literal.bound⟩
  | .error fault => throw fault

/-- How a value begins, with a number as it is written. -/
inductive SpelledLexeme where
  /-- The null value. -/
  | null
  /-- A truth value. -/
  | boolean (value : Bool)
  /-- A number. -/
  | number (number : WrittenNumber)
  /-- A string. -/
  | string (value : String)
  /-- The opening bracket of an array. -/
  | array
  /-- The opening brace of an object. -/
  | object

/-- How a value begins, without the literal. -/
def SpelledLexeme.lexeme : SpelledLexeme → Lexeme
  | .null => .null
  | .boolean value => .boolean value
  | .number n => .number n.value
  | .string value => .string value
  | .array => .array
  | .object => .object

/-- The rest of a lexeme that starts with a character. -/
def spelledLexemeAfter (c : Char) : Reader SpelledLexeme := fun s =>
  match c with
  | 'n' => Reader.map (fun _ => .null) (word ['u', 'l', 'l']) s
  | 't' => Reader.map (fun _ => .boolean true) (word ['r', 'u', 'e']) s
  | 'f' => Reader.map (fun _ => .boolean false) (word ['a', 'l', 's', 'e']) s
  | '-' => Reader.map .number (writtenNumber true) s
  | '"' => Reader.map .string string s
  | '[' => .ok (.nothing .array s)
  | '\x7b' => .ok (.nothing .object s)
  | _ => .error .expectedValue

/-- Reads how a value begins, after spaces. -/
def spelledLexeme : Reader SpelledLexeme := fun s =>
  match s.next? with
  | none => .error .endInValue
  | some ⟨.stray _, _, _⟩ => .error .expectedValue
  | some ⟨.char c, r, h⟩ => do
    if c.isDigit then
      let taken ← Reader.map .number (writtenNumber false) (.char c :: r)
      return taken.weaken h
    else
      let taken ← spelledLexemeAfter c r
      return taken.behind h

/-- Reads one member of a document after its key, and puts it behind those before. -/
def spelledMember (item : Reader Spelled) (before : List (String × Spelled)) (key : String) :
    Reader (List (String × Spelled)) := fun s => do
  let sign ← colon s
  let taken ← item sign.rest
  return ⟨before ++ [(key, taken.value)], taken.rest, Nat.le_trans taken.bound sign.bound⟩

/-- Reads a document, given a reader for the documents one level down. -/
def spelledWith (inner : Option (Reader Spelled)) : Reader Spelled := fun s => do
  let head ← spelledLexeme s
  let taken ← match head.value with
    | .null => .ok (.nothing .null head.rest)
    | .boolean b => .ok (.nothing (.boolean b) head.rest)
    | .number n => .ok (.nothing (.number n) head.rest)
    | .string text => .ok (.nothing (.string text) head.rest)
    | .array => descend inner (fun item => Reader.map .array (elements item)) head.rest
    | .object =>
      descend inner (fun item => Reader.map .object (members (spelledMember item) [])) head.rest
  return taken.weaken head.bound

/-- **Reads a document with its literals**, of at most the given nesting. -/
def spelled : Nat → Reader Spelled
  | 0 => spelledWith none
  | n + 1 => spelledWith (some (spelled n))

/-! ### Forgetting the literals -/

theorem number_eq_map_writtenNumber (negative : Bool) :
    number negative = Reader.map WrittenNumber.value (writtenNumber negative) := by
  funext s
  rw [number, Reader.map, writtenNumber]
  cases NumberLiteral.readUnsigned .endInValue negative s with
  | error e => rfl
  | ok literal =>
    obtain ⟨l, t, h⟩ := literal
    -- the value is looked at together with the proof that it is the value of the literal
    have hmatch : ∀ value, l.value = value →
        (value >>= fun v => (pure ⟨v, t, h⟩ : Except Fault (Taken Json.Number s))) =
          Except.map (Taken.map WrittenNumber.value) (match hvalue : l.value with
            | .ok v => (pure ⟨⟨l, v, hvalue⟩, t, h⟩ : Except Fault (Taken WrittenNumber s))
            | .error fault => throw fault) := by
      rintro value rfl
      split
      · next hvalue => simp only [hvalue]; rfl
      · next hvalue => simp only [hvalue]; rfl
    exact hmatch _ rfl

theorem lexemeAfter_eq_map (c : Char) :
    lexemeAfter c = Reader.map SpelledLexeme.lexeme (spelledLexemeAfter c) := by
  have hmap {α : Type} (f : α → SpelledLexeme) (read : Reader α) (s : Input) :
      Reader.map (fun x => (f x).lexeme) read s =
        (Reader.map f read s).map (Taken.map SpelledLexeme.lexeme) :=
    (congrFun (Reader.map_map SpelledLexeme.lexeme f read) s).symm
  funext s
  rw [Reader.map]
  unfold lexemeAfter
  split
  · exact hmap (fun _ => .null) _ s
  · exact hmap (fun _ => .boolean true) _ s
  · exact hmap (fun _ => .boolean false) _ s
  · rw [number_eq_map_writtenNumber, Reader.map_map]
    exact hmap .number _ s
  · exact hmap .string _ s
  · rfl
  · rfl
  · rw [spelledLexemeAfter]
    · rfl
    all_goals assumption

theorem lexeme_eq_map : lexeme = Reader.map SpelledLexeme.lexeme spelledLexeme := by
  funext s
  rw [lexeme, Reader.map, spelledLexeme]
  cases s.next? with
  | none => rfl
  | some next =>
    obtain ⟨x, r, h⟩ := next
    cases x with
    | stray byte => rfl
    | char c =>
      dsimp only
      split
      · rw [number_eq_map_writtenNumber, Reader.map_map, Reader.map, Reader.map]
        cases writtenNumber false (.char c :: r) <;> rfl
      · rw [lexemeAfter_eq_map, Reader.map]
        cases spelledLexemeAfter c r <;> rfl

theorem parsedMember_map (item : Reader Spelled) (before : List (String × Spelled))
    (key : String) :
    parsedMember (Reader.map Spelled.parsed item) (Spelled.parsedMembers before) key =
      Reader.map Spelled.parsedMembers (spelledMember item before key) := by
  have hput (w : Spelled) : Spelled.parsedMembers before ++ [(key, w.parsed)] =
      Spelled.parsedMembers (before ++ [(key, w)]) := by
    simp only [Spelled.parsedMembers_eq_map, List.map_append, List.map_cons, List.map_nil]
  funext s
  exact colon_bind_map (fun w => before ++ [(key, w)])
    (fun w => Spelled.parsedMembers before ++ [(key, w)]) hput item s

theorem parsedWith_map (inner : Option (Reader Spelled)) :
    parsedWith (inner.map (Reader.map Spelled.parsed)) =
      Reader.map Spelled.parsed (spelledWith inner) := by
  funext s
  rw [parsedWith, Reader.map, spelledWith, lexeme_eq_map, Reader.map]
  cases spelledLexeme s with
  | error e => rfl
  | ok head =>
    obtain ⟨l, t, h⟩ := head
    cases l with
    | array =>
      cases inner with
      | none => rfl
      | some item =>
        have helements : Reader.map Parsed.array (elements (Reader.map Spelled.parsed item)) =
            Reader.map Spelled.parsed (Reader.map Spelled.array (elements item)) :=
          map_elements_map fun items => by rw [Spelled.parsed, Spelled.parsedItems_eq_map]
        show Reader.map Parsed.array (elements (Reader.map Spelled.parsed item)) t >>= _ = _
        rw [helements]
        exact Reader.map_bind_weaken h
    | object =>
      cases inner with
      | none => rfl
      | some item =>
        have hmembers : Reader.map Parsed.object
            (members (parsedMember (Reader.map Spelled.parsed item)) (Spelled.parsedMembers [])) =
            Reader.map Spelled.parsed
              (Reader.map Spelled.object (members (spelledMember item) [])) :=
          map_members_map (parsedMember_map item) (fun read => by rw [Spelled.parsed]) []
        show Reader.map Parsed.object (members (parsedMember (Reader.map Spelled.parsed item))
          (Spelled.parsedMembers [])) t >>= _ = _
        rw [hmembers]
        exact Reader.map_bind_weaken h
    | _ => rfl

/-- **A document is parsed as it is read with its literals**, with the same faults. -/
theorem parsed_eq_map_spelled (n : Nat) : parsed n = Reader.map Spelled.parsed (spelled n) := by
  induction n with
  | zero => exact parsedWith_map none
  | succ n ih =>
    rw [parsed, ih]
    exact parsedWith_map (some (spelled n))

theorem readAll_map {α β : Type} (f : α → β) (read : Reader α) (s : Input) :
    readAll (Reader.map f read) s = (readAll read s).map f := by
  rw [readAll, readAll, Reader.map]
  cases read s with
  | error e => rfl
  | ok taken =>
    show (if taken.rest.next?.isNone then _ else _) = Except.map f (if _ then _ else _)
    split <;> rfl

/-- **The tree of a text** is that of the document which is read with its literals. -/
theorem readTree_eq_map_readAll_spelled (s : Input) :
    readTree s = (readAll (spelled maxNesting) s).map fun w => w.parsed.tree := by
  rw [readTree, tree_eq_map_parsed, parsed_eq_map_spelled, Reader.map_map, readAll_map]

end ConfigSchema.Reading
