import ConfigSchema.Proofs.Reading.Answer

/-!
# The bytes of a text

A file is read from its bytes. Those of a text are the encodings of its characters in a row,
and each of them is recognised at the front of what is left: so the input that the bytes are is
that of the text (`ConfigSchema.Reading.Input.ofBytes_toUTF8`), and a file that holds a text is
read as the text is.
-/

namespace ConfigSchema.Reading.Input

/-- A character is recognised by its encoding, whatever bytes follow. -/
theorem ofBytes_utf8EncodeChar_append (c : Char) (bytes : List UInt8) :
    ofBytes (String.utf8EncodeChar c ++ bytes) = .char c :: ofBytes bytes := by
  have hlength := String.length_utf8EncodeChar c
  have hdecode : ((String.utf8EncodeChar c ++ bytes).take 4).toByteArray.utf8DecodeChar? 0 =
      some c := by
    have hfour := c.utf8Size_le_four
    rw [List.take_append, List.take_of_length_le (by omega), List.toByteArray_append]
    exact ByteArray.utf8DecodeChar?_utf8EncodeChar_append
  have hrest : ((String.utf8EncodeChar c).tail ++ bytes).drop (c.utf8Size - 1) = bytes := by
    rw [← hlength, ← List.length_tail, List.drop_left]
  cases hbytes : String.utf8EncodeChar c with
  | nil =>
    have hpos := c.utf8Size_pos
    rw [hbytes] at hlength
    exact absurd hlength (by simp; omega)
  | cons byte more =>
    rw [hbytes] at hdecode hrest
    rw [List.cons_append, ofBytes, ← List.cons_append, hdecode]
    exact congrArg (fun bytes => Symbol.char c :: ofBytes bytes) hrest

/-- **The bytes of a text** are read as the text is. -/
theorem ofBytes_toUTF8 (text : String) :
    ofBytes text.toUTF8.data.toList = ofString text := by
  have hchars : ∀ cs : List Char,
      ofBytes (cs.flatMap String.utf8EncodeChar) = symbols cs := by
    intro cs
    induction cs with
    | nil => rw [List.flatMap_nil, ofBytes]; rfl
    | cons c cs ih => rw [List.flatMap_cons, ofBytes_utf8EncodeChar_append, ih, symbols_cons]
  have hbytes : text.toUTF8.data.toList = text.toList.flatMap String.utf8EncodeChar := by
    rw [String.toUTF8_eq_toByteArray, ← String.utf8Encode_toList, List.utf8Encode,
      List.toList_data_toByteArray]
  rw [hbytes, hchars]
  rfl

end ConfigSchema.Reading.Input
