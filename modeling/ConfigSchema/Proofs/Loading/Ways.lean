import ConfigSchema.Proofs.Reading.Bytes
import ConfigSchema.Proofs.Reading.Records

/-!
# The ways to load a text

A text is loaded as a string, as the contents of a file, or by way of a tree
(`ConfigSchema.Document.Way`). For a written document that is not nested too deep the three
differ in nothing but the words that go before the text of a fault
(`ConfigSchema.Reading.Decoder.load_text`).
-/

namespace ConfigSchema

open Reading

namespace Document

/-- How a text is loaded. -/
inductive Way where
  /-- As a string, in one pass. -/
  | string
  /-- As the contents of a file, in one pass. -/
  | file
  /-- As a string, by way of a tree. -/
  | tree
  deriving DecidableEq, Repr

namespace Way

/-- The document by which a text is loaded. -/
def document (text : String) : Way → Document
  | .string => .string text
  | .file => .file (.contents text.toUTF8.data.toList)
  | .tree => .tree text

/-- The words before the text of a fault. -/
def announcement : Way → String
  | .string => "Failed to parse config: "
  | .file => "Failed to parse config file: "
  | .tree => ""

/-- The error that a fault is told as. -/
def error : Way → Fault → LoadError
  | .string => .inText
  | .file => .inFile
  | .tree => .inTree

theorem message_error (way : Way) (fault : Fault) :
    (way.error fault).message = way.announcement ++ fault.message := by
  cases way with
  | tree => exact (String.empty_append).symm
  | _ => rfl

end Way

end Document

namespace Reading.Decoder

variable {α : Type} {decoder : Decoder α} {w : Json.Written} {answer : Except Fault α}

/-- **A written document is loaded as it is answered**, in all ways, if it is not nested too
deep. -/
theorem load_text (h : decoder.Answers w answer) (hnesting : w.nesting ≤ maxNesting)
    (way : Document.Way) :
    decoder.load (way.document (String.ofList w.text)) = answer.mapError way.error := by
  cases way with
  | string =>
    show (decoder.read (.ofString _)).mapError _ = _
    rw [ofString_ofList, read_text h]
    rfl
  | file =>
    show (decoder.read (.ofBytes _)).mapError _ = _
    rw [Input.ofBytes_toUTF8, ofString_ofList, read_text h]
    rfl
  | tree =>
    show (decoder.readByTree (.ofString _)).mapError _ = _
    rw [ofString_ofList, readByTree_text h, if_pos hnesting]
    rfl

end Reading.Decoder

end ConfigSchema
