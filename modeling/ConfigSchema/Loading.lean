import ConfigSchema.Definition.Decoder

/-!
# Loading documents

A typed value is loaded from a string, from a file, or from a string by way of a tree. The
first two read the text in one pass; a file differs from a string only in that its bytes may
be no text, or that there is no file to read. Each of the two says in its errors what was
being done; a fault on the way by a tree is told as it is.
-/

namespace ConfigSchema

open Reading

/-- What is found under the path of a file. -/
inductive File where
  /-- The bytes of a file. -/
  | contents (bytes : List UInt8)
  /-- There is nothing. -/
  | missing
  /-- There is a directory. -/
  | directory
  deriving DecidableEq, Repr

/-- A document, and how it is to be read. -/
inductive Document where
  /-- A string, read in one pass. -/
  | string (text : String)
  /-- What is found under a path, read in one pass. -/
  | file (file : File)
  /-- A string, read by way of a tree. -/
  | tree (text : String)
  deriving DecidableEq, Repr

/-- Why a document is not loaded. -/
inductive LoadError where
  /-- The text is at fault. -/
  | inText (fault : Fault)
  /-- The text, or the tree of it, is at fault. -/
  | inTree (fault : Fault)
  /-- The contents of the file are at fault. -/
  | inFile (fault : Fault)
  /-- There is no file. -/
  | missingFile
  /-- The file is a directory. -/
  | notAFile
  deriving DecidableEq, Repr

/-- The text of an error. -/
def LoadError.message : LoadError → String
  | .inText fault => "Failed to parse config: " ++ fault.message
  | .inTree fault => fault.message
  | .inFile fault => "Failed to parse config file: " ++ fault.message
  | .missingFile => "Failed to open config file: No such file or directory (os error 2)"
  | .notAFile => "Failed to parse config file: Is a directory (os error 21)"

namespace Reading.Decoder

variable {α : Type}

/-- Reads a document from text in one pass. -/
def read (decoder : Decoder α) (s : Input) : Except Fault α := readAll decoder.ofText s

/-- Reads a document from text by way of a tree. -/
def readByTree (decoder : Decoder α) (s : Input) : Except Fault α := do
  let j ← readTree s
  decoder.ofTree j

/-- Loads a document from a string, in one pass. -/
def loadString (decoder : Decoder α) (text : String) : Except LoadError α :=
  (decoder.read (.ofString text)).mapError .inText

/-- Loads a document from a file. -/
def loadFile (decoder : Decoder α) : File → Except LoadError α
  | .contents bytes => (decoder.read (.ofBytes bytes)).mapError .inFile
  | .missing => .error .missingFile
  | .directory => .error .notAFile

/-- **Loads a document.** -/
def load (decoder : Decoder α) : Document → Except LoadError α
  | .string text => decoder.loadString text
  | .file file => decoder.loadFile file
  | .tree text => (decoder.readByTree (.ofString text)).mapError .inTree

end Reading.Decoder

/-! ### What can be loaded -/

/-- The decoder of whole documents that are a field. -/
def Field.document : Decoder Field := Field.decoder maxNesting

/-- The decoder of whole documents that are a schema. -/
def Schema.document : Decoder Schema := Schema.decoder maxNesting

/-- The decoder of whole documents that are a definition. -/
def Definition.document : Decoder Definition := Definition.decoder maxNesting

end ConfigSchema
