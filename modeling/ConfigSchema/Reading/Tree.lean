import ConfigSchema.Reading.Brackets
import ConfigSchema.Reading.Lexeme

/-!
# Reading trees

A tree is read from any well-formed text whose arrays and objects are nested at most 127
deep; the bracket that opens one level more is a fault whatever follows it. Of the members
of an object with one key the last one stays.

The recursion is on the number of levels that are left, so a reader of the elements and
members one level down is at hand exactly if there is such a level.
-/

namespace ConfigSchema.Reading

variable {α β : Type}

/-- How many arrays and objects may be nested. -/
def maxNesting : Nat := 127

/-- Goes one level down, if there is one. -/
def descend (inner : Option α) (read : α → Reader β) : Reader β := fun s =>
  match inner with
  | none => .error .tooDeep
  | some x => read x s

/-- Reads one member of a tree after its key, and adds it to those before. -/
def treeMember (item : Reader Json.Tree) (before : List (String × Json.Tree)) (key : String) :
    Reader (List (String × Json.Tree)) := fun s => do
  let sign ← colon s
  let taken ← item sign.rest
  return ⟨Keyed.insert key taken.value before, taken.rest,
    Nat.le_trans taken.bound sign.bound⟩

/-- Reads a tree, given a reader for the trees one level down. -/
def treeWith (inner : Option (Reader Json.Tree)) : Reader Json.Tree := fun s => do
  let head ← lexeme s
  let taken ← match head.value with
    | .null => .ok (.nothing .null head.rest)
    | .boolean b => .ok (.nothing (.boolean b) head.rest)
    | .number n => .ok (.nothing (.number n) head.rest)
    | .string text => .ok (.nothing (.string text) head.rest)
    | .array => descend inner (fun item => Reader.map .array (elements item)) head.rest
    | .object =>
      descend inner (fun item => Reader.map .object (members (treeMember item) [])) head.rest
  return taken.weaken head.bound

/-- Reads a tree of at most the given nesting. -/
def tree : Nat → Reader Json.Tree
  | 0 => treeWith none
  | n + 1 => treeWith (some (tree n))

/-- **The tree of a text.** -/
def readTree (s : Input) : Except Fault Json.Tree := readAll (tree maxNesting) s

end ConfigSchema.Reading
