import EvmTrace.Text

set_option autoImplicit false

namespace EvmTrace.Text

theorem symbolsAfter_skip (skipped rest : Bytes) :
    symbolsAfter skipped.length (skipped ++ rest) = symbolsAfter 0 rest := by
  induction skipped with
  | nil => rfl
  | cons byte skipped ih => exact ih

/-- The first four bytes are enough to read a character. -/
theorem firstChar?_encode (c : Char) (rest : Bytes) :
    firstChar? (String.utf8EncodeChar c ++ rest) = some c := by
  have short : (String.utf8EncodeChar c).length ≤ 4 := by
    rw [String.length_utf8EncodeChar]
    exact c.utf8Size_le_four
  have front : (String.utf8EncodeChar c ++ rest).take 4 =
      String.utf8EncodeChar c ++ rest.take (4 - (String.utf8EncodeChar c).length) := by
    rw [List.take_append, List.take_of_length_le short]
  have bytes : (⟨((String.utf8EncodeChar c ++ rest).take 4).toArray⟩ : ByteArray) =
      (String.utf8EncodeChar c).toByteArray ++
        (rest.take (4 - (String.utf8EncodeChar c).length)).toByteArray := by
    apply ByteArray.ext
    simp [front]
  rw [firstChar?, bytes, ByteArray.utf8DecodeChar?_utf8EncodeChar_append]

theorem symbolsAfter_encode (c : Char) (rest : Bytes) :
    symbolsAfter 0 (String.utf8EncodeChar c ++ rest) = some c :: symbolsAfter 0 rest := by
  have first := firstChar?_encode c rest
  have size := String.length_utf8EncodeChar c
  cases encoded : String.utf8EncodeChar c with
  | nil =>
      have positive := c.utf8Size_pos
      rw [encoded, List.length_nil] at size
      omega
  | cons byte later =>
      rw [encoded, List.cons_append] at first
      rw [encoded, List.length_cons] at size
      have behind : c.utf8Size - 1 = later.length := by omega
      rw [List.cons_append]
      simp only [symbolsAfter, first, behind, symbolsAfter_skip]

/-- An encoded text is read as its characters. -/
theorem symbols_encode (text : String) : symbols (encode text) = text.toList.map some := by
  rw [encode, symbols]
  induction text.toList with
  | nil => rfl
  | cons c rest ih => rw [List.flatMap_cons, symbolsAfter_encode, ih, List.map_cons]

/-- An encoded text is read as the text. -/
theorem decode?_encode (text : String) : decode? (encode text) = some text := by
  have all : ∀ chars : List Char, (chars.map some).mapM id = some chars := by
    intro chars
    induction chars with
    | nil => rfl
    | cons c rest ih => simp [ih]
  rw [decode?, symbols_encode, all, Option.map_some, String.ofList_toList]

end EvmTrace.Text
